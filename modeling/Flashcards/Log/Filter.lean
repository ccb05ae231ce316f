import Flashcards.Log.Directive

namespace Flashcards

/-!
# Log filters

A filter is written as directives with commas between them.  Of those that are about a record, the
most specific one decides whether it passes.

* `Filter.ofText` — the filter of a text; directives that cannot be read do not count.
* `Filter.complaints` — what there is to say about them.
* `Filter.admits` — whether a filter lets a record pass.
-/

/-- Directives in the order in which they are written. -/
structure Filter where
  directives : List Directive
  deriving DecidableEq, Repr

/-- Whether a scope counts rather than one written before it, for the same target: a field counts
    rather than none, and the greater of two names of fields. -/
def Scope.overrules : Scope → Scope → Bool
  | .field name, .field earlier => earlier ≤ name
  | _, .field _ => false
  | _, _ => true

/-- Whether a directive counts rather than one written before it, when both are about a record:
    the longer target counts, and of one target the scope that overrules the other. -/
def Directive.overrules (d earlier : Directive) : Bool :=
  earlier.target.length < d.target.length ||
    (earlier.target.length = d.target.length && d.scope.overrules earlier.scope)

namespace Filter

/-- The texts of the directives. -/
def directiveTexts (text : String) : List String :=
  ((text.toList.splitOn ',').filter fun cs => !cs.isEmpty).map String.ofList

/-- The directive that counts where none can be read: only errors pass. -/
def onlyErrors : Directive :=
  ⟨"", .all, .level .error⟩

/-- The filter of a text. -/
def ofText (text : String) : Filter :=
  match (directiveTexts text).filterMap fun t => (Directive.ofText t).toOption with
  | [] => ⟨[onlyErrors]⟩
  | directives => ⟨directives⟩

/-- What there is to say about a directive's text. -/
def complaint? (text : String) : Option String :=
  match Directive.ofText text with
  | .ok _ => none
  | .error fault => some ("ignoring `" ++ text ++ "`: " ++ fault.message)

/-- What there is to say about the directives that cannot be read. -/
def complaints (text : String) : List String :=
  (directiveTexts text).filterMap complaint?

/-- The directive that decides about a record. -/
def directive? (f : Filter) (r : Record) : Option Directive :=
  (f.directives.filter (·.covers r)).foldl
    (fun best d =>
      match best with
      | none => some d
      | some b => if d.overrules b then some d else some b)
    none

/-- Whether a filter lets a record pass. -/
def admits (f : Filter) (r : Record) : Bool :=
  match f.directive? r with
  | some d => d.threshold.admits r.level
  | none => false

end Filter

end Flashcards
