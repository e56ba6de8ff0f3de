import Mathlib

/-!
# Watermarks

A watermark over a log of readings and cuts: a reading raises the mark to the level
read, a cut lowers the mark by its size.  So the mark is the largest of the levels
read, each less the cuts that came after it.

The order of the entries matters and truncation at zero happens at every cut.  The
closed form says that truncating once at the end comes to the same.
-/

namespace Watermark

inductive Entry where
  | reading (level : Nat)
  | cut (size : Nat)
  | quiet
  deriving DecidableEq

/-- The effect of one entry on the mark. -/
def advance (mark : Nat) : Entry → Nat
  | .reading level => max mark level
  | .cut size => mark - size
  | .quiet => mark

/-- The total of the cuts. -/
def cuts : List Entry → Nat
  | [] => 0
  | .cut size :: log => size + cuts log
  | _ :: log => cuts log

/-- Every level read, less the cuts after it. -/
def levels : List Entry → List Nat
  | [] => []
  | .reading level :: log => (level - cuts log) :: levels log
  | _ :: log => levels log

/-- The largest of the levels. -/
def crest (log : List Entry) : Nat := (levels log).foldr max 0

/-- A mark carried over counts like a level read at the start. -/
theorem foldl_advance (log : List Entry) (mark : Nat) :
    log.foldl advance mark = max (mark - cuts log) (crest log) := by
  induction log generalizing mark with
  | nil => simp [cuts, crest, levels]
  | cons e log ih =>
    rw [List.foldl_cons, ih]
    cases e with
    | reading level =>
      show max (max mark level - cuts log) _ = max (mark - cuts log) (max (level - cuts log) _)
      unfold crest
      omega
    | cut size =>
      have hc : crest (.cut size :: log) = crest log := rfl
      show max (mark - size - cuts log) _ = max (mark - (size + cuts log)) _
      omega
    | quiet => rfl

theorem le_crest {log : List Entry} {x : Nat} (h : x ∈ levels log) : x ≤ crest log := by
  unfold crest
  generalize levels log = xs at h
  induction xs with
  | nil => cases h
  | cons y ys ih =>
    rw [List.foldr_cons]
    rcases List.mem_cons.mp h with rfl | h
    · omega
    · have := ih h
      omega

/-- One more entry. -/
theorem crest_snoc (log : List Entry) (e : Entry) :
    crest (log ++ [e]) = advance (crest log) e := by
  have h : ∀ log, crest log = log.foldl advance 0 := by
    intro log
    rw [foldl_advance]
    omega
  rw [h, h, List.foldl_append]
  rfl

/-- Whether a level has been read. -/
def Read (log : List Entry) : Prop := levels log ≠ []

theorem read_iff {log : List Entry} : Read log ↔ ∃ level, Entry.reading level ∈ log := by
  unfold Read
  induction log with
  | nil => simp [levels]
  | cons e log ih =>
    cases e with
    | reading level => simp [levels]
    | cut | quiet => simpa [levels] using ih

end Watermark
