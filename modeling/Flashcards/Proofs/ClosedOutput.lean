import Flashcards.Proofs.Courses

namespace Flashcards

/-!
# Outputs that are closed early

A command on an output with little room is compared with the same command on an output that takes
everything.

* `failureAt` — the failure of the utterance that is cut, when there is room for some bytes only.
* `Sink.say_limited` — what a sink with little room takes of some utterances.
* `World.run_limited` — a closed output only cuts the output short.
-/

variable {us : List Utterance} {room : Nat}

/-! ### Room for some bytes -/

/-- The failure of the first utterance that there is no room for. -/
def failureAt : Nat → List Utterance → Option Failure
  | _, [] => none
  | room, u :: us =>
    if u.text.utf8ByteSize ≤ room then failureAt (room - u.text.utf8ByteSize) us
    else some (u.failure .closed)

/-- All is taken when there is room for all. -/
theorem failureAt_eq_none_iff :
    failureAt room us = none ↔ (spoken us).utf8ByteSize ≤ room := by
  induction us generalizing room with
  | nil => simp [failureAt, spoken]
  | cons u us ih =>
    rw [failureAt, spoken_cons, String.utf8ByteSize_append]
    split
    case isTrue hfits =>
      rw [ih]
      omega
    case isFalse hfits =>
      simp only [reduceCtorEq, false_iff]
      omega

/-- The failure is that of one of the utterances. -/
theorem exists_of_failureAt {e : Failure} (h : failureAt room us = some e) :
    ∃ u ∈ us, u.failure .closed = e := by
  induction us generalizing room with
  | nil => exact absurd h (by simp [failureAt])
  | cons u us ih =>
    rw [failureAt] at h
    split at h
    · obtain ⟨v, hv, hfailure⟩ := ih h
      exact ⟨v, List.mem_cons_of_mem u hv, hfailure⟩
    · exact ⟨u, List.mem_cons_self, Option.some.inj h⟩

/-- What does not fit is cut at the failure of all utterances, when they have the same. -/
theorem failureAt_of_forall {failure : OutputError → Failure} (h : ∀ u ∈ us, u.failure = failure)
    (hroom : room < (spoken us).utf8ByteSize) : failureAt room us = some (failure .closed) := by
  cases hcut : failureAt room us with
  | none => exact absurd (failureAt_eq_none_iff.mp hcut) (Nat.not_le.mpr hroom)
  | some e =>
    obtain ⟨u, hu, rfl⟩ := exists_of_failureAt hcut
    rw [h u hu]

/-! ### What a sink takes -/

namespace Sink

/-- Bytes for which there is room are taken whole. -/
theorem extract_of_size_le {bytes : ByteArray} {n : Nat} (h : bytes.size ≤ n) :
    bytes.extract 0 n = bytes := by
  rw [← Nat.max_eq_left h]
  exact ByteArray.extract_zero_max_size

/-- A text for which there is room is taken. -/
theorem write_of_le {accepted : ByteArray} {text : String} (h : text.utf8ByteSize ≤ room) :
    (⟨some (accepted.size + room), accepted⟩ : Sink).write text =
      (.ok (), ⟨some (accepted.size + room), accepted ++ text.toUTF8⟩) :=
  if_pos (Nat.add_le_add_left h _)

/-- Of a longer text the bytes are taken for which there is room. -/
theorem write_of_lt {accepted : ByteArray} {text : String} (h : room < text.utf8ByteSize) :
    (⟨some (accepted.size + room), accepted⟩ : Sink).write text =
      (.error .closed,
        ⟨some (accepted.size + room), accepted ++ text.toUTF8.extract 0 room⟩) := by
  have hcut : ¬ accepted.size + text.utf8ByteSize ≤ accepted.size + room := by omega
  rw [write]
  dsimp only
  rw [if_neg hcut, Nat.add_sub_cancel_left]

/-- A sink takes as many bytes as it has room for. -/
theorem say_limited (accepted : ByteArray) (room : Nat) (us : List Utterance) :
    (⟨some (accepted.size + room), accepted⟩ : Sink).say us =
      ((failureAt room us).elim (.ok ()) .error,
        ⟨some (accepted.size + room), accepted ++ (spoken us).toUTF8.extract 0 room⟩) := by
  induction us generalizing accepted room with
  | nil =>
    have hnothing : (spoken []).toUTF8.extract 0 room = ByteArray.empty :=
      ByteArray.extract_eq_empty_iff.mpr (by simp [spoken])
    rw [hnothing, ByteArray.append_empty]
    rfl
  | cons u us ih =>
    have hsize : u.text.toUTF8.size = u.text.utf8ByteSize := by simp
    have htext : (spoken (u :: us)).toUTF8 = u.text.toUTF8 ++ (spoken us).toUTF8 := by
      simp [spoken_cons]
    rw [say, failureAt, htext, ByteArray.extract_append, hsize, Nat.zero_sub]
    by_cases hfits : u.text.utf8ByteSize ≤ room
    · -- The room that is left is that of the sink after the first text.
      have hlimit : accepted.size + room =
          (accepted ++ u.text.toUTF8).size + (room - u.text.utf8ByteSize) := by
        rw [ByteArray.size_append, hsize]
        omega
      rw [write_of_le hfits, if_pos hfits, extract_of_size_le (hsize ▸ hfits)]
      dsimp only
      rw [hlimit, ih, ByteArray.append_assoc]
    · -- The first text is cut, and no room is left for those behind it.
      have hcut : room < u.text.utf8ByteSize := Nat.not_le.mp hfits
      have hrest : (spoken us).toUTF8.extract 0 (room - u.text.utf8ByteSize) = ByteArray.empty :=
        ByteArray.extract_eq_empty_iff.mpr (by omega)
      rw [write_of_lt hcut, if_neg hfits, hrest, ByteArray.append_empty]
      rfl

end Sink

/-! ### Courses on an output with little room -/

/-- A course on an output with a limit: what was spoken is cut there, and the text that did not fit
    fails. -/
theorem Course.perform_limited {α : Type} (c : Course α) (limit : Nat) :
    c.perform (.limited limit) =
      ((failureAt limit c.speech).elim c.ending .error,
        ⟨c.files, ⟨some limit, (spoken c.speech).toUTF8.extract 0 limit⟩, c.log⟩) := by
  have hsay := Sink.say_limited .empty limit c.speech
  rw [ByteArray.empty_append, ByteArray.size_empty, Nat.zero_add] at hsay
  rw [perform, Sink.limited, hsay]
  cases failureAt limit c.speech <;> rfl

/-! ### What commands have to print -/

/-- A command that prints a report. -/
def Command.printsReport : Command → Bool
  | .render _ _ json => json
  | _ => false

/-- A delivery fails as an output does. -/
theorem deliverCourse_speech (files : FileSystem) (log : List Record) (output : Option Path)
    (result : Except Markup.Diagnostic Markup.Document) :
    ∀ u ∈ (deliverCourse files log output result).speech, u.failure = .output := by
  unfold deliverCourse
  repeat' split
  all_goals simp

/-- A first look fails as an output does. -/
theorem lookCourse_speech (files : FileSystem) (log : List Record) (document : Path) :
    ∀ u ∈ (lookCourse files log document).speech, u.failure = .output := by
  unfold lookCourse
  split <;> simp

/-- A report is printed with a line end behind it.  All else fails in the same way when it is
    cut. -/
theorem Command.course_speech (c : Command) (files : FileSystem) (log : List Record) :
    if c.printsReport then
      (c.course files log).speech = [] ∨
        ∃ body, (c.course files log).speech = [⟨body, .report⟩, ⟨"\n", .output⟩]
    else ∀ u ∈ (c.course files log).speech, u.failure = .output := by
  cases c with
  | render file output json =>
    show if json then (renderCourse files log file output json).speech = [] ∨
        ∃ body, (renderCourse files log file output json).speech = _
      else ∀ u ∈ (renderCourse files log file output json).speech, _
    unfold renderCourse
    cases files.load file with
    | error e =>
      cases json with
      | true => exact .inl rfl
      | false => exact fun u hu => absurd hu List.not_mem_nil
    | ok text =>
      cases json with
      | true => exact .inr ⟨_, rfl⟩
      | false => exact deliverCourse_speech files _ output _
  | watch file =>
    show ∀ u ∈ (watchCourse files log file).speech, _
    unfold watchCourse
    split
    · simp
    · split
      · simp
      · exact lookCourse_speech files _ _
  | new path force =>
    show ∀ u ∈ (newCourse files log path force).speech, _
    unfold newCourse
    split <;> simp
  | demo =>
    show ∀ u ∈ (demoCourse files log).speech, _
    simp [demoCourse]

/-- The failure of a report that is cut, or of the line end behind it. -/
theorem failureAt_report {body : String} {limit : Nat}
    (h : limit < (spoken [⟨body, .report⟩, ⟨"\n", .output⟩]).utf8ByteSize) :
    failureAt limit [⟨body, .report⟩, ⟨"\n", .output⟩] =
      some (if limit < body.utf8ByteSize then .report .closed else .output .closed) := by
  have hsize : (spoken [⟨body, .report⟩, ⟨"\n", .output⟩]).utf8ByteSize =
      body.utf8ByteSize + "\n".utf8ByteSize := by
    simp [spoken]
  rw [hsize] at h
  by_cases hbody : limit < body.utf8ByteSize
  · rw [failureAt, if_neg (Nat.not_le.mpr hbody), if_pos hbody]
  · have hend : ¬ "\n".utf8ByteSize ≤ limit - body.utf8ByteSize := by omega
    rw [failureAt, if_pos (Nat.not_lt.mp hbody), failureAt, if_neg hend, if_neg hbody]

/-- The failure of a command that has more to print than there is room for. -/
theorem Command.failureAt_course (c : Command) (files : FileSystem) (log : List Record)
    (limit : Nat) (h : limit < (spoken (c.course files log).speech).utf8ByteSize) :
    if c.printsReport then
      ∃ body, spoken (c.course files log).speech = body ++ "\n" ∧
        failureAt limit (c.course files log).speech =
          some (if limit < body.utf8ByteSize then .report .closed else .output .closed)
    else failureAt limit (c.course files log).speech = some (.output .closed) := by
  have hspeech := c.course_speech files log
  split
  case isTrue hreport =>
    rw [if_pos hreport] at hspeech
    rcases hspeech with hnothing | ⟨body, hbody⟩
    · -- Without a report there is nothing to print, and nothing always fits.
      rw [hnothing] at h
      exact absurd h (by simp [spoken])
    · rw [hbody] at h ⊢
      exact ⟨body, by simp [spoken], failureAt_report h⟩
  case isFalse hother =>
    rw [if_neg hother] at hspeech
    exact failureAt_of_forall hspeech h

/-- **A closed output only cuts the output short.**  A command on an output that takes some number
    of bytes does to the files and the log what it does on an output that takes all, and its output
    is the first of the bytes written there.  If these are all, it ends as it does there; else it
    fails for its output, or for its report when even the report is cut. -/
theorem World.run_limited (w : World) (c : Command) (limit : Nat) :
    let whole := ({ w with out := .unlimited } : World).run c
    let cut := ({ w with out := .limited limit } : World).run c
    let written := whole.2.out.accepted
    cut.2.files = whole.2.files ∧ cut.2.log = whole.2.log ∧
      cut.2.out.accepted = written.extract 0 (min limit written.size) ∧
      if written.size ≤ limit then cut.1 = whole.1
      else if c.printsReport then
        ∃ body : String, written = (body ++ "\n").toUTF8 ∧
          cut.1 = .error (if limit < body.utf8ByteSize then .report .closed else .output .closed)
      else cut.1 = .error (.output .closed) := by
  intro whole cut written
  have hwhole : whole = (c.course w.files w.log).perform .unlimited :=
    World.run_eq_perform { w with out := .unlimited } c
  have hcut : cut = (c.course w.files w.log).perform (.limited limit) :=
    World.run_eq_perform { w with out := .limited limit } c
  have hfailure := c.failureAt_course w.files w.log limit
  -- The rest is about the course alone, whatever command it is one of.
  generalize c.course w.files w.log = course at hfailure hwhole hcut
  rw [Course.perform_unlimited] at hwhole
  rw [Course.perform_limited] at hcut
  have hwritten : written = (spoken course.speech).toUTF8 := by
    show whole.2.out.accepted = _
    rw [hwhole]
  have hsize : written.size = (spoken course.speech).utf8ByteSize := by simp [hwritten]
  refine ⟨by rw [hcut, hwhole], by rw [hcut, hwhole], ?_, ?_⟩
  · rw [hcut, ← hwritten]
    rcases Nat.le_total limit written.size with hle | hle
    · rw [Nat.min_eq_left hle]
    · rw [Nat.min_eq_right hle, Sink.extract_of_size_le hle, ByteArray.extract_zero_size]
  · split
    case isTrue hfits =>
      rw [hsize, ← failureAt_eq_none_iff] at hfits
      rw [hcut, hwhole, hfits]
      rfl
    case isFalse hroom =>
      rw [hsize, Nat.not_le] at hroom
      replace hfailure := hfailure hroom
      split
      case isTrue hreport =>
        rw [if_pos hreport] at hfailure
        obtain ⟨body, hbody, hfailure⟩ := hfailure
        refine ⟨body, by rw [hwritten, hbody], ?_⟩
        rw [hcut, hfailure]
        rfl
      case isFalse hother =>
        rw [if_neg hother] at hfailure
        rw [hcut, hfailure]
        rfl

end Flashcards
