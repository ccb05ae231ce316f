import Flashcards.Group
import Flashcards.Markup.Line

namespace Flashcards.Markup

/-!
# The registry of groups

The lines of a document are read one after another.  What one line leaves for the next is the
registry: all groups opened so far, where to find the group of a name, and which group is being
written, if any.  A name stays taken when its group is closed.

* `Registry.accept` — one line: the registry after it and the text that it prints, or its fault.
* `Registry.readLines` — some lines, up to the first fault among them.

The registry refers to its groups by their places.  A reference that leads nowhere stops the
reading with `Halt.lost`; `Registry.Sound` is why that never happens.
-/

/-- The groups of a document up to some line. -/
structure Registry where
  /-- All groups, in the order in which they were opened. -/
  groups : Array Group
  /-- The place of the group of each name, the name opened last first. -/
  places : List (String × Nat)
  /-- The place of the group being written. -/
  current : Option Nat
  deriving DecidableEq, Repr

namespace Registry

/-- The registry before the first line. -/
def empty : Registry :=
  ⟨#[], [], none⟩

/-- `#group`: one word, a new name, outside all groups. -/
def openGroup (r : Registry) (arguments : List String) : Except (Halt Fault) Registry :=
  match r.current with
  | some _ => .error (.fault .nestedGroup)
  | none =>
    match arguments with
    | [] => .error (.fault .missingName)
    | [name] =>
      match r.places.lookup name with
      | some _ => .error (.fault (.nameTaken name))
      | none =>
        .ok ⟨r.groups.push (Group.empty name), (name, r.groups.size) :: r.places,
          some r.groups.size⟩
    | _ :: _ :: _ => .error (.fault (.tooManyWords 1))

/-- `#endgroup`: no words, inside a group all of whose terms are complete. -/
def closeGroup (r : Registry) (arguments : List String) : Except (Halt Fault) Registry :=
  match r.current with
  | none => .error (.fault .noOpenGroup)
  | some place =>
    if !arguments.isEmpty then .error (.fault (.tooManyWords 0))
    else
      match r.groups[place]? with
      | none => .error .lost
      | some g =>
        if g.isDirty then .error (.fault .unfinishedTerm) else .ok { r with current := none }

/-- `#showgroup`: the name of a group and formats, outside all groups. -/
def showGroup (r : Registry) (arguments : List String) : Except (Halt Fault) String :=
  match r.current with
  | some _ => .error (.fault .showInsideGroup)
  | none =>
    match arguments with
    | [] => .error (.fault .missingName)
    | name :: formats =>
      match r.places.lookup name with
      | none => .error (.fault (.unknownGroup name))
      | some place =>
        match r.groups[place]? with
        | none => .error .lost
        | some g => (g.display formats).mapError .fault

/-- `#endfile`: no words, outside all groups. -/
def endFile (r : Registry) (arguments : List String) : Except (Halt Fault) Unit :=
  match r.current with
  | some _ => .error (.fault .unclosedGroup)
  | none => if !arguments.isEmpty then .error (.fault (.tooManyWords 0)) else .ok ()

/-- A line of content goes to the open group. -/
def addContent (r : Registry) (text : String) : Except (Halt Fault) Registry :=
  match r.current with
  | none => .error (.fault .strayContent)
  | some place =>
    match r.groups[place]? with
    | none => .error .lost
    | some g => .ok { r with groups := r.groups.setIfInBounds place (g.addLine text) }

/-- What a line of some kind does: the registry after it and the text that it prints. -/
def acceptLine (r : Registry) : Line → Except (Halt Fault) (Registry × String)
  | .empty => .ok (r, "")
  | .comment => .ok (r, "")
  | .openGroup arguments => (r.openGroup arguments).map (·, "")
  | .closeGroup arguments => (r.closeGroup arguments).map (·, "")
  | .showGroup arguments => (r.showGroup arguments).map (r, ·)
  | .endFile arguments => (r.endFile arguments).map fun _ => (r, "")
  | .unknown word => .error (.fault (.unknownCommand word))
  | .content text => (r.addContent text).map (·, "")

/-- What a line of text does. -/
def accept (r : Registry) (line : String) : Except (Halt Fault) (Registry × String) :=
  r.acceptLine (Line.ofText line)

/-- The registry after some lines, the first of which is line `n`, and what each of them prints, or
    the first fault among them. -/
def readLines (r : Registry) (n : Nat) :
    List String → Except (Halt Diagnostic) (Registry × List String)
  | [] => .ok (r, [])
  | line :: rest =>
    match r.accept line with
    | .error (.fault f) => .error (.fault ⟨n, line, f⟩)
    | .error .lost => .error .lost
    | .ok (next, printed) => (next.readLines (n + 1) rest).map fun p => (p.1, printed :: p.2)

end Registry

end Flashcards.Markup
