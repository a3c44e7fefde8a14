/-!
# Ranges of code points

Tables of code points as ascending ranges, and the look-up in such a table. Main statement: the
look-up finds a code point exactly when one of the ranges holds it.
-/

namespace Chronicle.Text

/-- Code points between two ends, both of them included. -/
structure CodeRange where
  first : Nat
  last : Nat
  deriving DecidableEq, Repr

namespace CodeRange

def Holds (range : CodeRange) (code : Nat) : Prop := range.first ≤ code ∧ code ≤ range.last

/-- Search that ends at the first range beyond the code point. -/
def covers : List CodeRange → Nat → Bool
  | [], _ => false
  | range :: rest, code => range.first ≤ code && (code ≤ range.last || covers rest code)

/-- Ranges beyond a code point, none empty, each beyond the one before it. -/
def ascendsFrom : Nat → List CodeRange → Bool
  | _, [] => true
  | least, range :: rest =>
      least ≤ range.first && range.first ≤ range.last && ascendsFrom (range.last + 1) rest

theorem le_first_of_ascendsFrom {least : Nat} {ranges : List CodeRange}
    (ascends : ascendsFrom least ranges = true) {range : CodeRange} (member : range ∈ ranges) :
    least ≤ range.first := by
  induction ranges generalizing least with
  | nil => cases member
  | cons head rest ih =>
      simp only [ascendsFrom, Bool.and_eq_true, decide_eq_true_eq] at ascends
      rcases List.mem_cons.mp member with rfl | later
      · exact ascends.1.1
      · have := ih ascends.2 later
        omega

theorem covers_iff {least : Nat} {ranges : List CodeRange}
    (ascends : ascendsFrom least ranges = true) (code : Nat) :
    covers ranges code = true ↔ ∃ range ∈ ranges, range.Holds code := by
  induction ranges generalizing least with
  | nil => simp [covers]
  | cons head rest ih =>
      simp only [ascendsFrom, Bool.and_eq_true, decide_eq_true_eq] at ascends
      simp only [covers, Bool.and_eq_true, Bool.or_eq_true, decide_eq_true_eq, ih ascends.2]
      constructor
      · rintro ⟨begins, ends | ⟨range, member, holds⟩⟩
        · exact ⟨head, List.mem_cons_self, begins, ends⟩
        · exact ⟨range, List.mem_cons_of_mem head member, holds⟩
      · rintro ⟨range, member, holds⟩
        rcases List.mem_cons.mp member with rfl | later
        · exact ⟨holds.1, .inl holds.2⟩
        · have beyond := le_first_of_ascendsFrom ascends.2 later
          have begins := holds.1
          exact ⟨by omega, .inr ⟨range, later, holds⟩⟩

end CodeRange

end Chronicle.Text
