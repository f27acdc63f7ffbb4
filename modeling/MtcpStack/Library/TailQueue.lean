import Mathlib.Data.List.Nodup
import Mathlib.Logic.Function.Basic

/-! # Tail queues

The doubly linked queues of `<sys/queue.h>`. An element has a pointer to the next one and a pointer
to the place that points to it: the head of the queue, or the `next` field of the element before.
The list of its elements is not part of a queue; `Holds` says which one it is. -/

namespace MtcpStack.TailQueue

/-- A place that holds a pointer to an element. -/
inductive Slot (κ α : Type*) where
  | head (q : κ)
  | next (a : α)
  deriving DecidableEq, Repr

/-- The pointers of the heads `κ` and of the elements `α`. -/
structure Links (κ α : Type*) where
  first : κ → Option α
  last : κ → Slot κ α
  next : α → Option α
  prev : α → Slot κ α

variable {κ α : Type*}

namespace Links

variable (l : Links κ α)

def load : Slot κ α → Option α
  | .head q => l.first q
  | .next a => l.next a

variable [DecidableEq κ] [DecidableEq α]

def store (s : Slot κ α) (v : Option α) : Links κ α :=
  match s with
  | .head q => { l with first := Function.update l.first q v }
  | .next a => { l with next := Function.update l.next a v }

/-- `TAILQ_INIT`. -/
def init (q : κ) : Links κ α :=
  { l with
    first := Function.update l.first q none
    last := Function.update l.last q (.head q) }

/-- `TAILQ_INSERT_TAIL`. -/
def insertTail (q : κ) (a : α) : Links κ α :=
  let l := { l with
    next := Function.update l.next a none
    prev := Function.update l.prev a (l.last q) }
  let l := l.store (l.last q) (some a)
  { l with last := Function.update l.last q (.next a) }

/-- `TAILQ_REMOVE`. -/
def remove (q : κ) (a : α) : Links κ α :=
  let l :=
    match l.next a with
    | some b => { l with prev := Function.update l.prev b (l.prev a) }
    | none => { l with last := Function.update l.last q (l.prev a) }
  l.store (l.prev a) (l.next a)

/-- A loop that follows the `next` pointers and stops where `p` holds; without a result it has not
come to an end. -/
def walk (p : α → Bool) : ℕ → Option α → Option (Option α)
  | _, none => some none
  | 0, some _ => none
  | fuel + 1, some a => if p a then some (some a) else walk p fuel (l.next a)

end Links

/-! ## Segments -/

/-- The last slot of the segment `as` that starts at `s`. -/
def endSlot : Slot κ α → List α → Slot κ α
  | s, [] => s
  | _, a :: as => endSlot (.next a) as

/-- From slot `s` on, the elements `as` are linked both ways. -/
def Seg (l : Links κ α) : Slot κ α → List α → Prop
  | _, [] => True
  | s, a :: as => l.load s = some a ∧ l.prev a = s ∧ Seg l (.next a) as

variable {l l' : Links κ α} {s : Slot κ α} {as bs : List α} {a : α}

theorem endSlot_append : endSlot s (as ++ bs) = endSlot (endSlot s as) bs := by
  induction as generalizing s with
  | nil => rfl
  | cons a as ih => exact ih

theorem seg_append : Seg l s (as ++ bs) ↔ Seg l s as ∧ Seg l (endSlot s as) bs := by
  induction as generalizing s with
  | nil => exact ⟨fun h => ⟨trivial, h⟩, fun h => h.2⟩
  | cons a as ih => rw [List.cons_append, Seg, Seg, ih, endSlot, and_assoc, and_assoc]

/-- The last slot is the first one or one of an element. -/
theorem endSlot_cases (s : Slot κ α) (as : List α) :
    endSlot s as = s ∧ as = [] ∨ ∃ a ∈ as, endSlot s as = .next a := by
  induction as generalizing s with
  | nil => exact .inl ⟨rfl, rfl⟩
  | cons a as ih =>
    refine .inr ?_
    rcases ih (.next a) with ⟨heq, -⟩ | ⟨b, hb, heq⟩
    · exact ⟨a, List.mem_cons_self, heq⟩
    · exact ⟨b, List.mem_cons_of_mem _ hb, heq⟩

/-- The slots of a queue with elements `as`. -/
def Within (q : κ) (as : List α) (t : Slot κ α) : Prop := t = .head q ∨ ∃ a ∈ as, t = .next a

theorem within_endSlot (q : κ) (as : List α) : Within q as (endSlot (.head q) as) := by
  rcases endSlot_cases (.head q) as with ⟨heq, -⟩ | h
  · exact .inl heq
  · exact .inr h

/-- A segment is one in other links that agree on its slots, the last one apart, and on its
elements. -/
theorem Seg.congr (h : Seg l s as) (hnodup : as.Nodup) (hs : ∀ x ∈ as, s ≠ .next x)
    (hload : ∀ t, t ≠ endSlot s as → (t = s ∨ ∃ x ∈ as, t = .next x) → l'.load t = l.load t)
    (hprev : ∀ x ∈ as, l'.prev x = l.prev x) : Seg l' s as := by
  induction as generalizing s with
  | nil => trivial
  | cons a as ih =>
    obtain ⟨hfirst, hback, hrest⟩ := h
    have hnodup' := List.nodup_cons.mp hnodup
    have hend : s ≠ endSlot s (a :: as) := by
      rcases endSlot_cases s (a :: as) with ⟨-, hnil⟩ | ⟨b, hb, heq⟩
      · cases hnil
      · rw [heq]
        exact hs b hb
    refine ⟨(hload s hend (.inl rfl)).trans hfirst, (hprev a List.mem_cons_self).trans hback, ?_⟩
    refine ih hrest hnodup'.2 (fun x hx heq => ?_) (fun t ht hon => ?_) fun x hx =>
      hprev x (List.mem_cons_of_mem _ hx)
    · cases heq
      exact hnodup'.1 hx
    · refine hload t ht (.inr ?_)
      rcases hon with rfl | ⟨x, hx, rfl⟩
      · exact ⟨a, List.mem_cons_self, rfl⟩
      · exact ⟨x, List.mem_cons_of_mem _ hx, rfl⟩

/-! ## Queues -/

/-- The elements of queue `q` are `as`, in this order. -/
structure Holds (l : Links κ α) (q : κ) (as : List α) : Prop where
  seg : Seg l (.head q) as
  last_eq : l.last q = endSlot (.head q) as
  ends : l.load (endSlot (.head q) as) = none
  nodup : as.Nodup

/-- A queue is the same in other links that agree on its slots and elements. -/
theorem Holds.congr {q : κ} (h : Holds l q as) (hlast : l'.last q = l.last q)
    (hload : ∀ t, Within q as t → l'.load t = l.load t) (hprev : ∀ x ∈ as, l'.prev x = l.prev x) :
    Holds l' q as where
  seg := h.seg.congr h.nodup nofun (fun t _ hon => hload t hon) hprev
  last_eq := hlast.trans h.last_eq
  ends := (hload _ (within_endSlot q as)).trans h.ends
  nodup := h.nodup

/-- Slots of different queues are different. -/
theorem Within.ne {q r : κ} {t u : Slot κ α} (ht : Within q as t) (hu : Within r bs u)
    (hqr : q ≠ r) (hdisj : as.Disjoint bs) : t ≠ u := by
  rcases ht with rfl | ⟨a, ha, rfl⟩ <;> rcases hu with rfl | ⟨b, hb, rfl⟩
  · exact fun heq => hqr (Slot.head.inj heq)
  · nofun
  · nofun
  · intro heq
    cases heq
    exact hdisj ha hb

theorem Within.ne_next {q : κ} {t : Slot κ α} (ht : Within q as t) (ha : a ∉ as) :
    t ≠ .next a := by
  rcases ht with rfl | ⟨b, hb, rfl⟩
  · nofun
  · intro heq
    cases heq
    exact ha hb

theorem Holds.next_eq {q : κ} (h : Holds l q (as ++ a :: bs)) : l.next a = bs.head? := by
  have hseg := (seg_append.mp h.seg).2
  cases bs with
  | nil =>
    have hends := h.ends
    rw [endSlot_append] at hends
    exact hends
  | cons b bs => exact hseg.2.2.1

theorem Holds.prev_eq {q : κ} (h : Holds l q (as ++ a :: bs)) :
    l.prev a = endSlot (.head q) as :=
  (seg_append.mp h.seg).2.2.1

theorem Holds.first_eq {q : κ} (h : Holds l q as) : l.first q = as.head? := by
  cases as with
  | nil => exact h.ends
  | cons a as => exact h.seg.1

/-- A loop over the queue finds what `List.find?` finds in the list. -/
theorem Seg.walk (h : Seg l s as) (hend : l.load (endSlot s as) = none) (p : α → Bool) {fuel : ℕ}
    (hfuel : as.length ≤ fuel) : l.walk p fuel (l.load s) = some (as.find? p) := by
  induction as generalizing s fuel with
  | nil =>
    have hnone : l.load s = none := hend
    rw [hnone]
    cases fuel <;> rfl
  | cons a as ih =>
    obtain ⟨hfirst, -, hrest⟩ := h
    obtain ⟨fuel, rfl⟩ : ∃ k, fuel = k + 1 := ⟨fuel - 1, by simp at hfuel; omega⟩
    rw [hfirst, Links.walk, List.find?_cons]
    cases p a with
    | true => rfl
    | false => exact ih hrest hend (by simpa using hfuel)

theorem Holds.walk {q : κ} (h : Holds l q as) (p : α → Bool) {fuel : ℕ}
    (hfuel : as.length ≤ fuel) : l.walk p fuel (l.first q) = some (as.find? p) :=
  h.seg.walk h.ends p hfuel

variable [DecidableEq κ] [DecidableEq α]

theorem load_store (s t : Slot κ α) (v : Option α) :
    (l.store s v).load t = if t = s then v else l.load t := by
  cases s <;> cases t <;> simp [Links.store, Links.load, Function.update_apply]

@[simp] theorem prev_store (s : Slot κ α) (v : Option α) : (l.store s v).prev = l.prev := by
  cases s <;> rfl

@[simp] theorem last_store (s : Slot κ α) (v : Option α) : (l.store s v).last = l.last := by
  cases s <;> rfl

/-! ### Insertion -/

theorem load_insertTail (q : κ) (a : α) (t : Slot κ α) :
    (l.insertTail q a).load t =
      if t = l.last q then some a else if t = .next a then none else l.load t := by
  have hfields : (l.insertTail q a).load t =
      (Links.store { l with
        next := Function.update l.next a none
        prev := Function.update l.prev a (l.last q) } (l.last q) (some a)).load t := by
    cases t <;> rfl
  rw [hfields, load_store]
  congr 1
  cases t with
  | head r => rfl
  | next b => simp [Links.load, Function.update_apply]

theorem prev_insertTail (q : κ) (a : α) :
    (l.insertTail q a).prev = Function.update l.prev a (l.last q) := by
  simp [Links.insertTail]

theorem last_insertTail (q : κ) (a : α) :
    (l.insertTail q a).last = Function.update l.last q (.next a) := by
  simp [Links.insertTail]

/-- The element is behind all others. -/
theorem Holds.insertTail {q : κ} (h : Holds l q as) (ha : a ∉ as) :
    Holds (l.insertTail q a) q (as ++ [a]) := by
  have hend := within_endSlot q as
  have hne := hend.ne_next ha
  have hlast : endSlot (.head q) (as ++ [a]) = .next a := endSlot_append
  refine ⟨seg_append.mpr ⟨?_, ?_, ?_, trivial⟩, ?_, ?_, ?_⟩
  · refine h.seg.congr h.nodup nofun (fun t ht hon => ?_) fun x hx => ?_
    · rw [load_insertTail, h.last_eq, if_neg ht, if_neg (Within.ne_next hon ha)]
    · rw [prev_insertTail, Function.update_of_ne]
      rintro rfl
      exact ha hx
  · rw [load_insertTail, h.last_eq, if_pos rfl]
  · rw [prev_insertTail, Function.update_self, h.last_eq]
  · rw [last_insertTail, Function.update_self, hlast]
  · rw [hlast, load_insertTail, h.last_eq, if_neg hne.symm, if_pos rfl]
  · exact List.nodup_append.mpr ⟨h.nodup, List.nodup_singleton a, by
      rintro x hx y hy rfl
      rw [List.mem_singleton] at hy
      exact ha (hy ▸ hx)⟩

/-- Another queue does not change. -/
theorem Holds.insertTail_other {q r : κ} (h : Holds l q as) (h' : Holds l r bs) (hqr : q ≠ r)
    (hdisj : as.Disjoint bs) (ha : a ∉ bs) : Holds (l.insertTail q a) r bs := by
  refine h'.congr ?_ (fun t ht => ?_) fun x hx => ?_
  · rw [last_insertTail, Function.update_of_ne hqr.symm]
  · rw [load_insertTail, h.last_eq, if_neg ((within_endSlot q as).ne ht hqr hdisj).symm,
      if_neg (ht.ne_next ha)]
  · rw [prev_insertTail, Function.update_of_ne]
    rintro rfl
    exact ha hx

/-! ### Removal -/

theorem load_remove (q : κ) (a : α) (t : Slot κ α) (ha : l.next a ≠ some a) :
    (l.remove q a).load t = if t = l.prev a then l.next a else l.load t := by
  rw [Links.remove]
  cases hnext : l.next a with
  | none =>
    rw [load_store]
    simp only [hnext]
    congr 1
  | some b =>
    have hb : a ≠ b := by
      rintro rfl
      exact ha hnext
    rw [load_store]
    simp only [hnext, Function.update_of_ne hb]
    congr 1

theorem prev_remove (q : κ) (a : α) (x : α) (hx : l.next a ≠ some x) :
    (l.remove q a).prev x = l.prev x := by
  rw [Links.remove]
  cases hnext : l.next a with
  | none => simp
  | some b =>
    have hb : x ≠ b := by
      rintro rfl
      exact hx hnext
    simp [Function.update_of_ne hb]

theorem prev_remove_next {q : κ} {a b : α} (hnext : l.next a = some b) :
    (l.remove q a).prev b = l.prev a := by
  simp [Links.remove, hnext]

theorem last_remove (q : κ) (a : α) :
    (l.remove q a).last =
      if l.next a = none then Function.update l.last q (l.prev a) else l.last := by
  rw [Links.remove]
  cases hnext : l.next a with
  | none => simp
  | some b => simp

/-- The element is gone and the others stay in order. -/
theorem Holds.remove {q : κ} (h : Holds l q (as ++ a :: bs)) :
    Holds (l.remove q a) q (as ++ bs) := by
  have hnext := h.next_eq
  have hprev := h.prev_eq
  obtain ⟨hseg, -, -, hrest⟩ := seg_append.mp h.seg
  obtain ⟨hnodup, hnodup', hdisj⟩ := List.nodup_append'.mp h.nodup
  obtain ⟨hab, hbs⟩ := List.nodup_cons.mp hnodup'
  have ha : a ∉ as := fun hmem => hdisj hmem List.mem_cons_self
  have hdisj' : as.Disjoint bs := fun x hx hx' => hdisj hx (List.mem_cons_of_mem _ hx')
  have hself : l.next a ≠ some a := by
    rw [hnext]
    exact fun heq => hab (List.mem_of_head? heq)
  have hload := load_remove (l := l) q a
  -- what stands before the element
  have hbefore : Seg (l.remove q a) (.head q) as := by
    refine hseg.congr hnodup nofun (fun t ht hon => ?_) fun x hx => ?_
    · rw [hload t hself, hprev, if_neg ht]
    · refine prev_remove q a x ?_
      rw [hnext]
      exact fun heq => hdisj' hx (List.mem_of_head? heq)
  have hend := within_endSlot q as
  refine ⟨seg_append.mpr ⟨hbefore, ?_⟩, ?_, ?_, List.nodup_append'.mpr ⟨hnodup, hbs, hdisj'⟩⟩
  · cases bs with
    | nil => trivial
    | cons b bs =>
      obtain ⟨-, -, hrest⟩ := hrest
      obtain ⟨hb, hbs⟩ := List.nodup_cons.mp hbs
      refine ⟨?_, (prev_remove_next hnext).trans hprev, ?_⟩
      · rw [hload _ hself, hprev, if_pos rfl, hnext]
        rfl
      · refine hrest.congr hbs (fun x hx heq => ?_) (fun t _ hon => ?_) fun x hx => ?_
        · cases heq
          exact hb hx
        · rw [hload t hself, hprev, if_neg]
          rcases hon with rfl | ⟨x, hx, rfl⟩
          · exact (hend.ne_next fun hmem => hdisj' hmem List.mem_cons_self).symm
          · exact (hend.ne_next fun hmem => hdisj' hmem (List.mem_cons_of_mem _ hx)).symm
        · refine prev_remove q a x ?_
          rw [hnext]
          rintro heq
          cases heq
          exact hb hx
  · rw [last_remove, hnext]
    cases bs with
    | nil => rw [List.head?_nil, if_pos rfl, Function.update_self, hprev, List.append_nil]
    | cons b bs =>
      rw [List.head?_cons, if_neg nofun, h.last_eq, endSlot_append, endSlot_append]
      rfl
  · cases bs with
    | nil => rw [List.append_nil, hload _ hself, hprev, if_pos rfl, hnext, List.head?_nil]
    | cons b bs =>
      have hlast : endSlot (.head q) (as ++ b :: bs) = endSlot (.head q) (as ++ a :: b :: bs) := by
        rw [endSlot_append, endSlot_append]
        rfl
      rw [hlast, hload _ hself, hprev, if_neg, h.ends]
      rw [endSlot_append]
      rcases endSlot_cases (.next b) bs with ⟨heq, -⟩ | ⟨x, hx, heq⟩
      · exact heq ▸ (hend.ne_next fun hmem => hdisj' hmem List.mem_cons_self).symm
      · exact heq ▸ (hend.ne_next fun hmem => hdisj' hmem (List.mem_cons_of_mem _ hx)).symm

/-- Another queue does not change. -/
theorem Holds.remove_other {q r : κ} {cs : List α} (h : Holds l q (as ++ a :: bs))
    (h' : Holds l r cs) (hqr : q ≠ r) (hdisj : (as ++ a :: bs).Disjoint cs) :
    Holds (l.remove q a) r cs := by
  have hnext := h.next_eq
  have hself : l.next a ≠ some a := by
    rw [hnext]
    intro heq
    have hnodup := (List.nodup_append'.mp h.nodup).2.1
    exact (List.nodup_cons.mp hnodup).1 (List.mem_of_head? heq)
  have hprev : Within q (as ++ a :: bs) (l.prev a) := by
    rw [h.prev_eq]
    exact (within_endSlot q as).imp id fun ⟨x, hx, heq⟩ => ⟨x, List.mem_append_left _ hx, heq⟩
  refine h'.congr ?_ (fun t ht => ?_) fun x hx => ?_
  · rw [last_remove]
    split_ifs
    · exact Function.update_of_ne hqr.symm ..
    · rfl
  · rw [load_remove q a t hself, if_neg (hprev.ne ht hqr hdisj).symm]
  · refine prev_remove q a x ?_
    rw [hnext]
    intro heq
    exact hdisj (List.mem_append_right _ (List.mem_cons_of_mem _ (List.mem_of_head? heq))) hx

/-- An element goes from one queue to the end of another one. -/
theorem Holds.move {q r : κ} {cs : List α} (h : Holds l q (as ++ a :: bs)) (h' : Holds l r cs)
    (hqr : q ≠ r) (hdisj : (as ++ a :: bs).Disjoint cs) :
    Holds ((l.remove q a).insertTail r a) q (as ++ bs) ∧
      Holds ((l.remove q a).insertTail r a) r (cs ++ [a]) := by
  have hrest := h.remove
  have hother := h.remove_other h' hqr hdisj
  have hmid : (as ++ a :: bs).Perm (a :: (as ++ bs)) := List.perm_middle
  obtain ⟨ha, -⟩ := List.nodup_cons.mp (hmid.nodup_iff.mp h.nodup)
  have hdisj' : cs.Disjoint (as ++ bs) := fun x hx hx' =>
    hdisj (hmid.mem_iff.mpr (List.mem_cons_of_mem _ hx')) hx
  have hacs : a ∉ cs := hdisj (hmid.mem_iff.mpr List.mem_cons_self)
  exact ⟨hother.insertTail_other hrest hqr.symm hdisj' ha, hother.insertTail hacs⟩

end MtcpStack.TailQueue
