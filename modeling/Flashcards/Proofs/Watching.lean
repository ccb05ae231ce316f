import Flashcards.Watch.History

namespace Flashcards.Watch

open Flashcards.Markup

/-!
# What a watcher does about events

Apart from what the log is told, a stage goes on in two ways only: a text is delivered and
remembered, or nothing happens.

* `Stage.start_bind`, `Stage.advance_bind` — steps made one after the other.
* `Stage.quiet` — a stage without its log.
* `Stage.quiet_look` — a look at the document delivers its text, unless that was shown last.
* `Stage.Current` — the watcher has shown what the document holds.  A look makes a stage current,
  and at a current stage a look does nothing.
* `Stage.quiet_handleAll` — any number of events come to one look, or to none.

A delivery may do what it likes with the listener and the output.  It is `Blind` when neither the
files nor the log bear on that, and the files do not change.
-/

variable {deliver : String → ExceptT Failure Audience Unit} {document : Path} {s t : Stage}
  {w : Watcher} {text : String}

namespace Stage

/-! ### Steps one after the other -/

/-- A watch that goes on makes its steps from where it is. -/
theorem advance_of_ok (hw : s.watcher = .ok w)
    (act : Watcher → ExceptT Failure Audience Watcher) :
    s.advance act = start s.world s.listener (act w) := by
  rw [advance, hw]

/-- A watch that has ended stays as it is. -/
theorem advance_of_error {e : Failure} (hw : s.watcher = .error e)
    (act : Watcher → ExceptT Failure Audience Watcher) : s.advance act = s := by
  rw [advance, hw]

theorem start_pure (world : World) (l : Listener) (w : Watcher) :
    start world l (pure w) = ⟨.ok w, l, world⟩ :=
  rfl

/-- Steps go on from where the first of them came, unless it fails. -/
theorem start_bind {α : Type} (world : World) (l : Listener) (act : ExceptT Failure Audience α)
    (next : α → ExceptT Failure Audience Watcher) :
    start world l (act >>= next) =
      match (act.run.run l).run world with
      | ((.ok a, l'), world') => start world' l' (next a)
      | ((.error e, l'), world') => ⟨.error e, l', world'⟩ := by
  simp only [start, ExceptT.run, StateT.run, bind, ExceptT.bind, ExceptT.mk, StateT.bind]
  rcases act l world with ⟨⟨_ | _, l'⟩, world'⟩ <;> rfl

theorem advance_pure (s : Stage) : s.advance (fun w => pure w) = s := by
  rcases s with ⟨_ | _, _, _⟩ <;> rfl

/-- Two steps of a watch are one step in two parts. -/
theorem advance_bind (s : Stage) (act next : Watcher → ExceptT Failure Audience Watcher) :
    (s.advance fun w => act w >>= next) = (s.advance act).advance next := by
  cases hw : s.watcher with
  | error e => rw [advance_of_error hw, advance_of_error hw, advance_of_error hw]
  | ok w =>
    rw [advance_of_ok hw, advance_of_ok hw, start_bind, start]
    rcases ((act w).run.run s.listener).run s.world with ⟨⟨_ | _, l⟩, world⟩ <;> rfl

end Stage

/-! ### Deliveries -/

/-- A listener hears what is told, or refuses it. -/
theorem tell_run (rendered : String) (l : Listener) (world : World) :
    ((tell rendered).run.run l).run world =
      if l.refused = some (l.heard.length + 1) then
        ((.error (.listener "output closed"), l), world)
      else ((.ok (), { l with heard := l.heard ++ [rendered] }), world) := by
  by_cases hrefused : l.refused = some (l.heard.length + 1)
  · simp only [tell, ExceptT.run, ExceptT.mk, StateT.run, if_pos hrefused]
    rfl
  · simp only [tell, ExceptT.run, ExceptT.mk, StateT.run, if_neg hrefused]
    rfl

/-- Steps to which neither the files nor the log matter: what comes of them is settled by the
    listener and the output.  They leave the files as they are, and may add to the log. -/
def Blind {α : Type} (act : ExceptT Failure Audience α) : Prop :=
  ∀ l out, ∃ result l' out', ∀ files log, ∃ added,
    (act.run.run l).run ⟨files, out, log⟩ = ((result, l'), ⟨files, out', log ++ added⟩)

/-- Steps are blind if all of their parts are. -/
theorem Blind.bind {α β : Type} {act : ExceptT Failure Audience α}
    {next : α → ExceptT Failure Audience β} (hact : Blind act) (hnext : ∀ a, Blind (next a)) :
    Blind (act >>= next) := by
  intro l out
  obtain ⟨result, l', out', hrun⟩ := hact l out
  cases result with
  | error e =>
    refine ⟨.error e, l', out', fun files log => ?_⟩
    obtain ⟨added, hadded⟩ := hrun files log
    simp only [ExceptT.run, StateT.run] at hadded
    refine ⟨added, ?_⟩
    simp only [ExceptT.run, StateT.run, Bind.bind, ExceptT.bind, ExceptT.mk, StateT.bind, hadded]
    rfl
  | ok a =>
    obtain ⟨result, l'', out'', hrest⟩ := hnext a l' out'
    refine ⟨result, l'', out'', fun files log => ?_⟩
    obtain ⟨added, hadded⟩ := hrun files log
    obtain ⟨more, hmore⟩ := hrest files (log ++ added)
    simp only [ExceptT.run, StateT.run] at hadded hmore
    refine ⟨added ++ more, ?_⟩
    simp only [ExceptT.run, StateT.run, Bind.bind, ExceptT.bind, ExceptT.mk, StateT.bind, hadded,
      ← List.append_assoc]
    exact hmore

theorem blind_pure {α : Type} (a : α) : Blind (pure a) :=
  fun l out => ⟨.ok a, l, out, fun files log => ⟨[], by rw [List.append_nil]; rfl⟩⟩

/-- Only the listener bears on what is told. -/
theorem blind_tell (rendered : String) : Blind (tell rendered) := by
  intro l out
  by_cases hrefused : l.refused = some (l.heard.length + 1)
  · refine ⟨.error (.listener "output closed"), l, out, fun files log => ⟨[], ?_⟩⟩
    rw [tell_run, if_pos hrefused, List.append_nil]
  · refine ⟨.ok (), { l with heard := l.heard ++ [rendered] }, out, fun files log => ⟨[], ?_⟩⟩
    rw [tell_run, if_neg hrefused, List.append_nil]

/-- Only the output bears on what is printed. -/
theorem blind_printOut (printed : String) : Blind (printOut printed) :=
  fun l out => ⟨(out.write printed).1.mapError .output, l, (out.write printed).2,
    fun files log => ⟨[], by rw [List.append_nil]; rfl⟩⟩

theorem blind_flush : Blind (orFail .output Host.flush) :=
  fun l out => ⟨.ok (), l, out, fun files log => ⟨[], by rw [List.append_nil]; rfl⟩⟩

theorem blind_printFrame (rendered : String) : Blind (printFrame rendered) :=
  (blind_printOut _).bind fun _ => (blind_printOut _).bind fun _ => blind_flush

theorem blind_printAndTell (rendered : String) : Blind (printAndTell rendered) :=
  (blind_printFrame _).bind fun _ => blind_tell _

namespace Stage

/-! ### Stages without their logs -/

/-- A stage without its log. -/
def quiet (s : Stage) : Stage :=
  { s with world := { s.world with log := [] } }

/-- Stages are the same without their logs when they are the same in all else. -/
theorem quiet_eq_quiet_iff :
    s.quiet = t.quiet ↔
      s.watcher = t.watcher ∧ s.listener = t.listener ∧ s.world.files = t.world.files ∧
        s.world.out = t.world.out := by
  rcases s with ⟨watcher, l, files, out, log⟩
  simp [quiet]

/-- Files and log can be changed in either order. -/
theorem quiet_withFiles (s : Stage) (fs : FileSystem) :
    (s.withFiles fs).quiet = s.quiet.withFiles fs :=
  rfl

/-- What comes of blind steps, but for the log, is settled by the watcher, the listener and the
    output. -/
theorem exists_advance {act : Watcher → ExceptT Failure Audience Watcher}
    (h : ∀ w, Blind (act w)) (watcher : Except Failure Watcher) (l : Listener) (out : Sink) :
    ∃ watcher' l' out', ∀ files log, ∃ added,
      (⟨watcher, l, ⟨files, out, log⟩⟩ : Stage).advance act =
        ⟨watcher', l', ⟨files, out', log ++ added⟩⟩ := by
  cases watcher with
  | error e => exact ⟨.error e, l, out, fun files log => ⟨[], by rw [List.append_nil]; rfl⟩⟩
  | ok w =>
    obtain ⟨result, l', out', hrun⟩ := h w l out
    refine ⟨result, l', out', fun files log => ?_⟩
    obtain ⟨added, hadded⟩ := hrun files log
    refine ⟨added, ?_⟩
    rw [advance_of_ok rfl, start, hadded]

/-- Blind steps make nothing of a difference in the log. -/
theorem quiet_advance {act : Watcher → ExceptT Failure Audience Watcher} (h : ∀ w, Blind (act w))
    (heq : s.quiet = t.quiet) : (s.advance act).quiet = (t.advance act).quiet := by
  obtain ⟨hwatcher, hlistener, hfiles, hout⟩ := quiet_eq_quiet_iff.mp heq
  rcases s with ⟨watcher, l, files, out, log⟩
  rcases t with ⟨_, _, _, _, log'⟩
  subst hwatcher hlistener hfiles hout
  obtain ⟨watcher', l', out', hrun⟩ := exists_advance h watcher l out
  obtain ⟨added, hadded⟩ := hrun files log
  obtain ⟨added', hadded'⟩ := hrun files log'
  rw [hadded, hadded']
  rfl

/-- Blind steps make nothing of a difference in the files. -/
theorem quiet_advance_withFiles {act : Watcher → ExceptT Failure Audience Watcher}
    (h : ∀ w, Blind (act w)) (s : Stage) (fs : FileSystem) :
    ((s.withFiles fs).advance act).quiet = ((s.advance act).withFiles fs).quiet := by
  rcases s with ⟨watcher, l, files, out, log⟩
  obtain ⟨watcher', l', out', hrun⟩ := exists_advance h watcher l out
  obtain ⟨added, hadded⟩ := hrun files log
  obtain ⟨added', hadded'⟩ := hrun fs log
  show ((⟨watcher, l, ⟨fs, out, log⟩⟩ : Stage).advance act).quiet = _
  rw [hadded, hadded']
  rfl

/-- Blind steps leave the files as they are. -/
theorem files_advance {act : Watcher → ExceptT Failure Audience Watcher} (h : ∀ w, Blind (act w))
    (s : Stage) : (s.advance act).world.files = s.world.files := by
  rcases s with ⟨watcher, l, files, out, log⟩
  obtain ⟨watcher', l', out', hrun⟩ := exists_advance h watcher l out
  obtain ⟨added, hadded⟩ := hrun files log
  rw [hadded]

/-! ### Texts delivered and remembered -/

/-- The stage after a text was delivered and remembered. -/
def present (deliver : String → ExceptT Failure Audience Unit) (s : Stage) (text : String) :
    Stage :=
  s.advance fun w => do
    deliver (render text)
    return { w with shown := some text }

/-- A delivery makes nothing of a difference in the log. -/
theorem quiet_present (hblind : ∀ rendered, Blind (deliver rendered)) (heq : s.quiet = t.quiet)
    (text : String) : (s.present deliver text).quiet = (t.present deliver text).quiet :=
  quiet_advance (fun _ => (hblind _).bind fun _ => blind_pure _) heq

/-- A delivery makes nothing of a difference in the files. -/
theorem quiet_present_withFiles (hblind : ∀ rendered, Blind (deliver rendered)) (s : Stage)
    (fs : FileSystem) (text : String) :
    ((s.withFiles fs).present deliver text).quiet = ((s.present deliver text).withFiles fs).quiet :=
  quiet_advance_withFiles (fun _ => (hblind _).bind fun _ => blind_pure _) s fs

theorem present_files (hblind : ∀ rendered, Blind (deliver rendered)) (s : Stage) (text : String) :
    (s.present deliver text).world.files = s.world.files :=
  files_advance (fun _ => (hblind _).bind fun _ => blind_pure _) s

/-- What a watcher knows after it delivered a text, if the delivery did not fail. -/
theorem watcher_of_present (h : (s.present deliver text).watcher = .ok w) :
    ∃ before, s.watcher = .ok before ∧ w = { before with shown := some text } := by
  cases hw : s.watcher with
  | error e =>
    rw [present, advance_of_error hw, hw] at h
    exact absurd h (by simp)
  | ok before =>
    refine ⟨before, rfl, ?_⟩
    rw [present, advance_of_ok hw, start_bind] at h
    split at h
    · simpa [start_pure] using h.symm
    · exact absurd h (by simp)

/-- The listener is told, and the steps go on, unless the listener refuses. -/
theorem start_tell_bind (world : World) (l : Listener) (rendered : String)
    (next : Unit → ExceptT Failure Audience Watcher) :
    start world l (tell rendered >>= next) =
      if l.refused = some (l.heard.length + 1) then
        ⟨.error (.listener "output closed"), l, world⟩
      else start world { l with heard := l.heard ++ [rendered] } (next ()) := by
  rw [start_bind, tell_run]
  by_cases hrefused : l.refused = some (l.heard.length + 1)
  · rw [if_pos hrefused, if_pos hrefused]
  · rw [if_neg hrefused, if_neg hrefused]

/-- A rendering is told to the listener and remembered, unless the listener refuses it. -/
theorem present_tell (hw : s.watcher = .ok w) (text : String) :
    s.present tell text =
      if s.listener.refused = some (s.listener.heard.length + 1) then
        ⟨.error (.listener "output closed"), s.listener, s.world⟩
      else
        ⟨.ok { w with shown := some text },
          { s.listener with heard := s.listener.heard ++ [render text] }, s.world⟩ := by
  rw [present, advance_of_ok hw, start_tell_bind, start_pure]

/-! ### Looks at the document -/

/-- What the document holds. -/
def loaded (document : Path) (s : Stage) : Except StorageError String :=
  Storage.decode document (s.world.files.read document)

/-- What the document holds does not depend on the log. -/
theorem loaded_congr (heq : s.quiet = t.quiet) (document : Path) :
    s.loaded document = t.loaded document := by
  rw [loaded, loaded, (quiet_eq_quiet_iff.mp heq).2.2.1]

/-- The stage after another look at the document. -/
def look (deliver : String → ExceptT Failure Audience Unit) (s : Stage) : Stage :=
  s.advance fun w => w.reload deliver

/-- The log is told some records, and the steps go on. -/
theorem start_logRecords_bind (world : World) (l : Listener) (rs : List Record)
    (next : Unit → ExceptT Failure Audience Watcher) :
    start world l (logRecords rs >>= next) =
      start { world with log := world.log ++ rs } l (next ()) := by
  induction rs generalizing world with
  | nil =>
    rw [List.append_nil]
    rfl
  | cons r rs ih =>
    rw [List.append_cons]
    exact ih { world with log := world.log ++ [r] }

/-- A look delivers the text of the document, unless that is the text shown last. -/
theorem quiet_look (hblind : ∀ rendered, Blind (deliver rendered)) (hw : s.watcher = .ok w)
    (hdocument : w.document = document) :
    (s.look deliver).quiet =
      match s.loaded document with
      | .error _ => s.quiet
      | .ok text => if w.shown = some text then s.quiet else (s.present deliver text).quiet := by
  subst hdocument
  rcases s with ⟨_, l, world⟩
  subst hw
  have hload : ((ExceptT.lift (Storage.load w.document) :
      ExceptT Failure Audience (Except StorageError String)).run.run l).run world =
        ((.ok (Stage.loaded w.document ⟨.ok w, l, world⟩), l), world) := rfl
  rw [look, advance_of_ok rfl, Watcher.reload, start_bind, hload]
  cases loaded w.document ⟨.ok w, l, world⟩ with
  | error e => rfl
  | ok text =>
    dsimp only
    split
    · rfl
    · -- What the log was told of a fault does not matter to the delivery.
      rw [start_logRecords_bind]
      have hlog : quiet ⟨.ok w, l, world.files, world.out,
          world.log ++ faultRecords (Document.ofText text)⟩ = quiet ⟨.ok w, l, world⟩ := rfl
      exact quiet_present hblind hlog text

/-- The watcher of a stage, if its watch has not ended, is one of the document. -/
def Watches (document : Path) (s : Stage) : Prop :=
  ∀ w, s.watcher = .ok w → w.document = document

/-- What the document holds is what was shown last, if it can be loaded at all. -/
def Current (document : Path) (s : Stage) : Prop :=
  ∀ w text, s.watcher = .ok w → s.loaded document = .ok text → w.shown = some text

/-- Which document is watched does not depend on the log. -/
theorem Watches.of_quiet (hwatches : Watches document s) (heq : s.quiet = t.quiet) :
    Watches document t := by
  have hquiet : Watches document s.quiet := hwatches
  rwa [heq] at hquiet

/-- What was shown does not depend on the log. -/
theorem Current.of_quiet (hcurrent : Current document s) (heq : s.quiet = t.quiet) :
    Current document t := by
  have hquiet : Current document s.quiet := hcurrent
  rwa [heq] at hquiet

/-- A look does nothing, or delivers the text of the document. -/
theorem look_cases (hblind : ∀ rendered, Blind (deliver rendered))
    (hwatches : Watches document s) :
    ((s.look deliver).quiet = s.quiet ∧ Current document s) ∨
      ∃ text, s.loaded document = .ok text ∧
        (s.look deliver).quiet = (s.present deliver text).quiet := by
  cases hw : s.watcher with
  | error e =>
    refine .inl ⟨by rw [look, advance_of_error hw], fun w text hok => by simp [hw] at hok⟩
  | ok w =>
    rw [quiet_look hblind hw (hwatches w hw)]
    cases hloaded : s.loaded document with
    | error e => exact .inl ⟨rfl, fun w text _ hok => by simp [hloaded] at hok⟩
    | ok text =>
      by_cases hshown : w.shown = some text
      · refine .inl ⟨if_pos hshown, fun w' text' hok htext => ?_⟩
        obtain rfl : w = w' := by simpa [hw] using hok
        obtain rfl : text = text' := by simpa [hloaded] using htext
        exact hshown
      · exact .inr ⟨text, rfl, if_neg hshown⟩

/-- A look makes nothing of a difference in the log. -/
theorem quiet_look_congr (hblind : ∀ rendered, Blind (deliver rendered))
    (hwatches : Watches document s) (heq : s.quiet = t.quiet) :
    (s.look deliver).quiet = (t.look deliver).quiet := by
  have hwatcher : s.watcher = t.watcher := (quiet_eq_quiet_iff.mp heq).1
  cases hw : s.watcher with
  | error e =>
    rw [look, look, advance_of_error hw, advance_of_error (hwatcher ▸ hw), heq]
  | ok w =>
    have hdocument := hwatches w hw
    rw [quiet_look hblind hw hdocument, quiet_look hblind (hwatcher ▸ hw) hdocument,
      loaded_congr heq, heq]
    cases t.loaded document with
    | error e => rfl
    | ok text =>
      dsimp only
      rw [quiet_present hblind heq]

/-- Where the watcher has shown what the document holds, a look does nothing. -/
theorem look_of_current (hblind : ∀ rendered, Blind (deliver rendered))
    (hwatches : Watches document s) (hcurrent : Current document s) :
    (s.look deliver).quiet = s.quiet := by
  cases hw : s.watcher with
  | error e => rw [look, advance_of_error hw]
  | ok w =>
    rw [quiet_look hblind hw (hwatches w hw)]
    cases hloaded : s.loaded document with
    | error e => rfl
    | ok text => exact if_pos (hcurrent w text hw hloaded)

/-- A look leaves the files as they are. -/
theorem look_files (hblind : ∀ rendered, Blind (deliver rendered))
    (hwatches : Watches document s) : (s.look deliver).world.files = s.world.files := by
  rcases look_cases hblind hwatches with ⟨hlook, -⟩ | ⟨text, -, hlook⟩
  · exact (quiet_eq_quiet_iff.mp hlook).2.2.1
  · rw [(quiet_eq_quiet_iff.mp hlook).2.2.1, present_files hblind]

/-- A look leaves the document as it is. -/
theorem loaded_look (hblind : ∀ rendered, Blind (deliver rendered))
    (hwatches : Watches document s) :
    (s.look deliver).loaded document = s.loaded document := by
  rw [loaded, look_files hblind hwatches, loaded]

/-- A watcher stays one of its document. -/
theorem Watches.look (hwatches : Watches document s)
    (hblind : ∀ rendered, Blind (deliver rendered)) : Watches document (s.look deliver) := by
  rcases look_cases hblind hwatches with ⟨hlook, -⟩ | ⟨text, -, hlook⟩
  · exact hwatches.of_quiet hlook.symm
  · refine Watches.of_quiet (fun w hw => ?_) hlook.symm
    obtain ⟨before, hbefore, rfl⟩ := watcher_of_present hw
    exact hwatches before hbefore

/-- After a look the watcher has shown what the document holds. -/
theorem current_look (hblind : ∀ rendered, Blind (deliver rendered))
    (hwatches : Watches document s) : Current document (s.look deliver) := by
  rcases look_cases hblind hwatches with ⟨hlook, hcurrent⟩ | ⟨text, htext, hlook⟩
  · exact hcurrent.of_quiet hlook.symm
  · refine Current.of_quiet (fun w text' hw hloaded => ?_) hlook.symm
    obtain ⟨before, -, rfl⟩ := watcher_of_present hw
    rw [loaded, present_files hblind] at hloaded
    rw [Except.ok.inj (htext.symm.trans hloaded)]

end Stage

/-- A watch before its first look at the document. -/
def opened (document : Path) (l : Listener) (world : World) : Stage :=
  ⟨.ok ⟨document, none⟩, l, world⟩

/-- A watch begins with a watcher of its document. -/
theorem watches_opened (document : Path) (l : Listener) (world : World) :
    (opened document l world).Watches document := by
  rintro w ⟨⟩
  rfl

/-! ### Events -/

/-- Some of the events tell of an update of the document. -/
def TellUpdate (document : Path) (es : List Event) : Prop :=
  ∃ e ∈ es, e.change? document = some .updated

instance (document : Path) (es : List Event) : Decidable (TellUpdate document es) :=
  inferInstanceAs (Decidable (∃ e ∈ es, e.change? document = some .updated))

@[simp] theorem not_tellUpdate_nil (document : Path) : ¬ TellUpdate document [] := by
  simp [TellUpdate]

/-- The first event tells of an update, or a later one does. -/
theorem tellUpdate_cons_iff {e : Event} {es : List Event} :
    TellUpdate document (e :: es) ↔
      e.change? document = some .updated ∨ TellUpdate document es := by
  simp [TellUpdate]

/-- An update is told in the one part or in the other. -/
theorem tellUpdate_append_iff {es es' : List Event} :
    TellUpdate document (es ++ es') ↔ TellUpdate document es ∨ TellUpdate document es' := by
  simp [TellUpdate, or_and_right, exists_or]

namespace Stage

/-- Only an update makes the watcher look.  Of a removal it tells the log. -/
theorem quiet_handle (deliver : String → ExceptT Failure Audience Unit)
    (hwatches : Watches document s) (e : Event) :
    (s.advance fun w => w.handle deliver e).quiet =
      if e.change? document = some .updated then (s.look deliver).quiet else s.quiet := by
  cases hw : s.watcher with
  | error err => rw [advance_of_error hw, look, advance_of_error hw, ite_self]
  | ok w =>
    obtain rfl := hwatches w hw
    rcases s with ⟨_, l, world⟩
    subst hw
    rw [advance_of_ok rfl, Watcher.handle, look, advance_of_ok rfl]
    cases hchange : e.change? w.document with
    | none => rfl
    | some change => cases change <;> rfl

/-- Any number of events come to one look, or to none: one update among them is as good as many. -/
theorem quiet_handleAll (hblind : ∀ rendered, Blind (deliver rendered)) (es : List Event)
    (hwatches : Watches document s) :
    (s.advance fun w => w.handleAll deliver es).quiet =
      if TellUpdate document es then (s.look deliver).quiet else s.quiet := by
  induction es generalizing s with
  | nil => exact congrArg quiet s.advance_pure
  | cons e es ih =>
    simp only [Watcher.handleAll, tellUpdate_cons_iff]
    rw [advance_bind]
    have hfirst := quiet_handle deliver hwatches e
    by_cases hupdated : e.change? document = some .updated
    · -- After this look nothing is due, so the events behind the update do nothing.
      rw [if_pos hupdated] at hfirst
      have hlater := (hwatches.look hblind).of_quiet hfirst.symm
      have hcurrent := (current_look hblind hwatches).of_quiet hfirst.symm
      rw [if_pos (.inl hupdated), ih hlater, look_of_current hblind hlater hcurrent, ite_self,
        hfirst]
    · rw [if_neg hupdated] at hfirst
      have hlater := hwatches.of_quiet hfirst.symm
      rw [ih hlater, quiet_look_congr hblind hlater hfirst, hfirst]
      simp only [hupdated, false_or]

end Stage

/-! ### A sample -/

/-- A file as someone calls it. -/
def sampleFile : Path :=
  ⟨"words.txt"⟩

/-- The path of that file from the root. -/
def sampleDocument : Path :=
  ⟨"/home/cards/words.txt"⟩

/-- The files when the document holds a text. -/
def sampleFiles (text : String) : FileSystem :=
  FileSystem.empty.overwrite sampleFile text.toUTF8

end Flashcards.Watch
