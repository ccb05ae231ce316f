import Flashcards.Term

namespace Flashcards

open Flashcards.Markup

/-!
# Groups

A group is a named list of terms that grows line by line: a headword, a reading, a definition.

* `Group.terms` — the complete terms.
* `Group.addLine` — one more line; the third line of a term completes it.
* `Group.display` — the flashcards of a group, all of them or none.
-/

/-- A named list of terms and the lines of the term being written. -/
structure Group where
  name : String
  /-- The complete terms, the last one first. -/
  finished : List Term
  /-- The headword that waits for the rest of its term. -/
  pendingHeadword : Option String
  /-- The reading that waits for its definition, as typed. -/
  pendingReading : Option String
  deriving DecidableEq, Repr

namespace Group

/-- The complete terms of a group, in the order of their lines. -/
def terms (g : Group) : List Term :=
  g.finished.reverse

/-- A group without terms. -/
def empty (name : String) : Group :=
  ⟨name, [], none, none⟩

/-- A group after one more line of content. -/
def addLine (g : Group) (line : String) : Group :=
  match g.pendingHeadword, g.pendingReading with
  -- A reading that waits without its headword would be lost; `Registry.Sound` rules it out.
  | none, _ => { g with pendingHeadword := some line, pendingReading := none }
  | some _, none => { g with pendingReading := some line }
  | some h, some r =>
    { g with
      finished := Term.ofLines h r line :: g.finished
      pendingHeadword := none
      pendingReading := none }

@[simp] theorem addLine_name (g : Group) (line : String) : (g.addLine line).name = g.name := by
  unfold addLine
  split <;> rfl

/-- A reading never waits without its headword. -/
theorem addLine_ordered (g : Group) (line : String)
    (h : (g.addLine line).pendingReading.isSome) : (g.addLine line).pendingHeadword.isSome := by
  unfold addLine at h ⊢
  split at h
  case h_1 => exact absurd h Bool.false_ne_true
  case h_2 hh _ => simp [hh]
  case h_3 => exact absurd h Bool.false_ne_true

/-- Whether a term has been started and not completed. -/
def isDirty (g : Group) : Bool :=
  g.pendingHeadword.isSome

/-- The flashcards of some terms in the format of a name.  A name is looked up for a term, so
    without terms any name will do. -/
def renderTerms (name : String) (ts : List Term) : Except Fault String :=
  (ts.mapM fun t : Term => t.renderNamed name).map String.join

/-- The flashcards of a group in each of some formats, one format after the other. -/
def renderFormats (g : Group) (names : List String) : Except Fault String :=
  (names.mapM fun name => renderTerms name g.terms).map String.join

/-- The flashcards of a group in the formats of some names, at least one.  The first name that
    is no format's makes all of it fail. -/
def display (g : Group) (names : List String) : Except Fault String :=
  if names.isEmpty then .error .noFormats else g.renderFormats names

end Group

end Flashcards
