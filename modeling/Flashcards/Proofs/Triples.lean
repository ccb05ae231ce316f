import Flashcards.Proofs.Groups

namespace Flashcards

/-!
# Lines taken three at a time

A group keeps the lines of the term being written in two places of its own.  Said of the lines by
their indices: the lines at `3 * i` and the two indices after it are a term, and the lines behind
the last whole term wait.

* `getElem?_triples` — the term at an index.
* `leftover_eq_drop` — the lines that wait.
* `Group.ofLines_by_index` — a group, as its lines make it.
-/

/-- The term at an index is made of the three lines at three times the index. -/
theorem getElem?_triples (ls : List String) (i : Nat) (hi : i < ls.length / 3) :
    (triples ls)[i]? = some (Term.ofLines ls[3 * i] ls[3 * i + 1] ls[3 * i + 2]) := by
  fun_induction triples ls generalizing i with
  | case1 => exact absurd hi (by simp)
  | case2 => exact absurd hi (by simp)
  | case3 => exact absurd hi (by simp)
  | case4 h r d rest ih =>
    -- `h`, `r` and `d` are the first term; the others are those of `rest`.
    cases i with
    | zero => rfl
    | succ i =>
      have hrest : i < rest.length / 3 := by
        simp only [List.length_cons] at hi
        omega
      rw [List.getElem?_cons_succ, ih i hrest]
      rfl

/-- The lines that are left over are those behind the last three that are taken. -/
theorem leftover_eq_drop (ls : List String) : leftover ls = ls.drop (3 * (ls.length / 3)) := by
  fun_induction leftover ls with
  | case1 => rfl
  | case2 => simp
  | case3 => simp
  | case4 h r d rest ih =>
    have hlength : (h :: r :: d :: rest).length / 3 = rest.length / 3 + 1 := by
      simp only [List.length_cons]
      omega
    rw [hlength, Nat.mul_succ, ih]
    rfl

namespace Group

/-- The headword that waits is the line behind the last term, if there is one. -/
theorem ofLines_pendingHeadword (name : String) (ls : List String) :
    (ofLines name ls).pendingHeadword = ls[3 * (ls.length / 3)]? := by
  rw [ofLines_eq, leftover_eq_drop]
  exact List.getElem?_drop

/-- The reading that waits is the line behind this headword, if there is one. -/
theorem ofLines_pendingReading (name : String) (ls : List String) :
    (ofLines name ls).pendingReading = ls[3 * (ls.length / 3) + 1]? := by
  rw [ofLines_eq, leftover_eq_drop]
  exact List.getElem?_drop

/-- **A group takes its lines three at a time.**  There are a third as many terms as lines, rounded
    down, and the term at an index is made of the three lines at three times the index.  The one or
    two lines behind them wait as headword and reading, and make the group dirty. -/
theorem ofLines_by_index (name : String) (ls : List String) :
    (ofLines name ls).name = name ∧
      (ofLines name ls).terms.length = ls.length / 3 ∧
      (∀ i (hi : i < ls.length / 3), (ofLines name ls).terms[i]? =
        some (Term.ofLines ls[3 * i] ls[3 * i + 1] ls[3 * i + 2])) ∧
      ((ofLines name ls).isDirty = true ↔ ¬ 3 ∣ ls.length) ∧
      (ofLines name ls).pendingHeadword =
        (if h : 1 ≤ ls.length % 3 then some ls[3 * (ls.length / 3)] else none) ∧
      (ofLines name ls).pendingReading =
        (if h : ls.length % 3 = 2 then some ls[3 * (ls.length / 3) + 1] else none) := by
  have hdirty := ofLines_isDirty_eq_false_iff name ls
  refine ⟨ofLines_name name ls, ?_, fun i hi => ?_, ?_, ?_, ?_⟩
  · rw [ofLines_terms, length_triples]
  · rw [ofLines_terms, getElem?_triples ls i hi]
  · rw [← hdirty, Bool.not_eq_false]
  · rw [ofLines_pendingHeadword]
    split
    case isTrue h => exact List.getElem?_eq_getElem _
    case isFalse h => exact List.getElem?_eq_none (by omega)
  · rw [ofLines_pendingReading]
    split
    case isTrue h => exact List.getElem?_eq_getElem _
    case isFalse h => exact List.getElem?_eq_none (by omega)

/-- Five lines, two of them empty: a term, a headword and a reading. -/
theorem ofLines_by_index_unfinished :
    (ofLines "numbers" ["一", "", "one", "", "er4"]).terms[0]? = some ⟨"一", "", "one"⟩ ∧
      (ofLines "numbers" ["一", "", "one", "", "er4"]).isDirty = true ∧
      (ofLines "numbers" ["一", "", "one", "", "er4"]).pendingHeadword = some "" ∧
      (ofLines "numbers" ["一", "", "one", "", "er4"]).pendingReading = some "er4" := by
  obtain ⟨-, -, hterm, hdirty, hheadword, hreading⟩ :=
    ofLines_by_index "numbers" ["一", "", "one", "", "er4"]
  exact ⟨hterm 0 (by decide), hdirty.mpr (by decide), hheadword, hreading⟩

end Group

end Flashcards
