import Mathlib.Data.BitVec
import Mathlib.Data.List.Basic

/-! # Bytes in memory

A memory gives the byte at every address. What a program writes there is a list of bytes; words
are written with their most significant byte first. -/

namespace MtcpStack.Memory

/-- The bytes `bs` stand at address `i` and behind it. -/
def Holds (mem : ℕ → BitVec 8) (i : ℕ) : List (BitVec 8) → Prop
  | [] => True
  | b :: bs => mem i = b ∧ Holds mem (i + 1) bs

variable {mem mem' : ℕ → BitVec 8} {i : ℕ}

@[simp] theorem holds_nil : Holds mem i [] := trivial

@[simp] theorem holds_cons {b : BitVec 8} {bs : List (BitVec 8)} :
    Holds mem i (b :: bs) ↔ mem i = b ∧ Holds mem (i + 1) bs := Iff.rfl

theorem holds_append {bs cs : List (BitVec 8)} :
    Holds mem i (bs ++ cs) ↔ Holds mem i bs ∧ Holds mem (i + bs.length) cs := by
  induction bs generalizing i with
  | nil => simp
  | cons b bs ih =>
      rw [List.cons_append, holds_cons, holds_cons, ih, List.length_cons, and_assoc,
        show i + 1 + bs.length = i + (bs.length + 1) by omega]

/-- A list read as a memory. -/
def ofList (bs : List (BitVec 8)) (k : ℕ) : BitVec 8 := bs.getD k 0

theorem holds_ofList (pre bs : List (BitVec 8)) : Holds (ofList (pre ++ bs)) pre.length bs := by
  induction bs generalizing pre with
  | nil => trivial
  | cons b bs ih =>
      refine ⟨by simp [ofList], ?_⟩
      have h := ih (pre ++ [b])
      simpa using h

/-- The `n` bytes at address `i`. -/
def load (mem : ℕ → BitVec 8) : ℕ → ℕ → List (BitVec 8)
  | _, 0 => []
  | i, n + 1 => mem i :: load mem (i + 1) n

@[simp] theorem load_zero : load mem i 0 = [] := rfl

@[simp] theorem load_succ {n : ℕ} : load mem i (n + 1) = mem i :: load mem (i + 1) n := rfl

@[simp] theorem load_length {n : ℕ} : (load mem i n).length = n := by
  induction n generalizing i with
  | zero => rfl
  | succ n ih => rw [load_succ, List.length_cons, ih]

theorem load_add {m n : ℕ} : load mem i (m + n) = load mem i m ++ load mem (i + m) n := by
  induction m generalizing i with
  | zero => simp
  | succ m ih =>
      rw [Nat.succ_add, load_succ, load_succ, ih, List.cons_append, Nat.add_right_comm,
        Nat.add_assoc i m 1]

theorem load_congr {n : ℕ} (h : ∀ k, i ≤ k → k < i + n → mem' k = mem k) :
    load mem' i n = load mem i n := by
  induction n generalizing i with
  | zero => rfl
  | succ n ih =>
      rw [load_succ, load_succ, h i (by omega) (by omega), ih fun k hlo hhi => h k (by omega) (by omega)]

theorem load_shift {j n : ℕ} : load (fun k => mem (j + k)) i n = load mem (j + i) n := by
  induction n generalizing i with
  | zero => rfl
  | succ n ih => rw [load_succ, load_succ, ih, Nat.add_assoc]

theorem load_of_holds {bs : List (BitVec 8)} (h : Holds mem i bs) : load mem i bs.length = bs := by
  induction bs generalizing i with
  | nil => rfl
  | cons b bs ih => rw [List.length_cons, load_succ, h.1, ih h.2]

theorem load_ofList (bs : List (BitVec 8)) : load (ofList bs) 0 bs.length = bs :=
  load_of_holds (holds_ofList [] bs)

/-- The two bytes of a word. -/
def bytes16 (x : BitVec 16) : List (BitVec 8) := [x.extractLsb' 8 8, x.extractLsb' 0 8]

/-- The four bytes of a double word. -/
def bytes32 (x : BitVec 32) : List (BitVec 8) :=
  [x.extractLsb' 24 8, x.extractLsb' 16 8, x.extractLsb' 8 8, x.extractLsb' 0 8]

def read16 (mem : ℕ → BitVec 8) (i : ℕ) : BitVec 16 := mem i ++ mem (i + 1)

def read32 (mem : ℕ → BitVec 8) (i : ℕ) : BitVec 32 :=
  mem i ++ mem (i + 1) ++ mem (i + 2) ++ mem (i + 3)

theorem read16_of_holds {x : BitVec 16} (h : Holds mem i (bytes16 x)) : read16 mem i = x := by
  obtain ⟨h0, h1, -⟩ := h
  rw [read16, h0, h1]
  ext k hk
  simp only [BitVec.getElem_append, BitVec.getElem_extractLsb']
  split <;> grind

/-- The bytes of a word that was read. -/
theorem bytes16_read16 (mem : ℕ → BitVec 8) (i : ℕ) : bytes16 (read16 mem i) = load mem i 2 := by
  have hhigh : (read16 mem i).extractLsb' 8 8 = mem i := by
    ext k hk
    simp only [read16, BitVec.getElem_extractLsb', BitVec.getLsbD_append]
    grind
  have hlow : (read16 mem i).extractLsb' 0 8 = mem (i + 1) := by
    ext k hk
    simp only [read16, BitVec.getElem_extractLsb', BitVec.getLsbD_append]
    grind
  rw [bytes16, hhigh, hlow]
  rfl

theorem read32_of_holds {x : BitVec 32} (h : Holds mem i (bytes32 x)) : read32 mem i = x := by
  obtain ⟨h0, h1, h2, h3, -⟩ := h
  rw [read32, h0, h1, h2, h3]
  ext k hk
  simp only [BitVec.getElem_append, BitVec.getElem_extractLsb']
  split_ifs <;> grind

end MtcpStack.Memory
