import Flashcards.Proofs.Watching

namespace Flashcards.Watch

open Flashcards.Markup

/-!
# Documents that change while events wait

The document may change at any time, and the events that tell of it wait in a queue until the
watcher takes them.  So the watcher sees late what happened, sees several changes as one, and may
be told of a text that is there no longer.

* `Step` — the document is replaced or removed, something else happens, or the watcher takes the
  oldest event.
* `Reachable` — the situations that can come of it, if events are sent for all that happens after
  the first look.
* `Sound` — an update waits, or the watcher has shown what the document holds.
* `Reachable.no_update_lost` — with no update waiting, the text of the document is the one rendered
  last.
-/

/-- A watch, and the events that it has not yet taken, the oldest first. -/
structure Situation where
  stage : Stage
  queue : List Event

/-- What may happen next. -/
inductive Step (document : Path) : Situation → Situation → Prop where
  /-- The document gets another content, and some event tells of an update. -/
  | replace {s : Stage} {queue sent : List Event} {fs : FileSystem} {content : ByteArray}
      (hread : fs.read document = .ok content) (hsent : TellUpdate document sent) :
      Step document ⟨s, queue⟩ ⟨s.withFiles fs, queue ++ sent⟩
  /-- The document goes away. -/
  | remove {s : Stage} {queue sent : List Event} {fs : FileSystem} {cause : FileError}
      (hread : fs.read document = .error cause) :
      Step document ⟨s, queue⟩ ⟨s.withFiles fs, queue ++ sent⟩
  /-- Something happens that leaves the document alone. -/
  | other {s : Stage} {queue sent : List Event} {fs : FileSystem}
      (hread : fs.read document = s.world.files.read document) :
      Step document ⟨s, queue⟩ ⟨s.withFiles fs, queue ++ sent⟩
  /-- The watcher takes the oldest event. -/
  | handle {s : Stage} {e : Event} {queue : List Event} :
      Step document ⟨s, e :: queue⟩ ⟨s.advance fun w => w.handle tell e, queue⟩

/-- The situations that can come of a first look, whatever events wait by then. -/
inductive Reachable (document : Path) : Situation → Prop where
  | first (world : World) (refused : Option Nat) (queue : List Event) :
      Reachable document
        ⟨Stage.start world ⟨refused, []⟩ (Watcher.reload tell ⟨document, none⟩), queue⟩
  | next {s s' : Situation} : Reachable document s → Step document s s' → Reachable document s'

/-! ### What every situation has -/

/-- What the listener heard last is the rendering of what the watcher remembers. -/
def Remembered (s : Stage) : Prop :=
  ∀ w, s.watcher = .ok w → s.listener.heard.getLast? = w.shown.map render

/-- No change of the document is forgotten: an update waits, or the change was shown. -/
structure Sound (document : Path) (s : Situation) : Prop where
  watches : s.stage.Watches document
  remembered : Remembered s.stage
  upToDate : TellUpdate document s.queue ∨ s.stage.Current document

variable {document : Path} {s s' : Situation} {stage : Stage} {queue : List Event}

theorem Remembered.of_quiet {stage' : Stage} (hremembered : Remembered stage)
    (heq : stage.quiet = stage'.quiet) : Remembered stage' := by
  have hquiet : Remembered stage.quiet := hremembered
  rwa [heq] at hquiet

/-- Soundness does not depend on the log. -/
theorem Sound.of_quiet {stage' : Stage} (h : Sound document ⟨stage, queue⟩)
    (heq : stage.quiet = stage'.quiet) : Sound document ⟨stage', queue⟩ :=
  ⟨h.watches.of_quiet heq, h.remembered.of_quiet heq,
    h.upToDate.imp id fun hcurrent => hcurrent.of_quiet heq⟩

/-- What is remembered after a look was told. -/
theorem Remembered.look (hremembered : Remembered stage) (hwatches : stage.Watches document) :
    Remembered (stage.look tell) := by
  rcases Stage.look_cases blind_tell hwatches with ⟨hlook, -⟩ | ⟨text, -, hlook⟩
  · exact hremembered.of_quiet hlook.symm
  · refine Remembered.of_quiet (fun w hw => ?_) hlook.symm
    obtain ⟨before, hbefore, rfl⟩ := Stage.watcher_of_present hw
    rw [Stage.present_tell hbefore] at hw ⊢
    split at hw
    · exact absurd hw (by simp)
    case isFalse hheard => simp [if_neg hheard]

/-- A look makes up for all changes so far, whatever is told of them later. -/
theorem sound_look (hremembered : Remembered stage) (hwatches : stage.Watches document)
    (queue : List Event) : Sound document ⟨stage.look tell, queue⟩ :=
  ⟨hwatches.look blind_tell, hremembered.look hwatches,
    .inr (Stage.current_look blind_tell hwatches)⟩

/-- The first look makes every watch sound. -/
theorem sound_first (world : World) (refused : Option Nat) (queue : List Event) :
    Sound document
      ⟨Stage.start world ⟨refused, []⟩ (Watcher.reload tell ⟨document, none⟩), queue⟩ := by
  have hwatches := watches_opened document ⟨refused, []⟩ world
  have hremembered : Remembered (opened document ⟨refused, []⟩ world) := by
    rintro w ⟨⟩
    rfl
  exact sound_look hremembered hwatches queue

/-- What happens around the watch leaves it sound when the new files are told or current. -/
theorem Sound.withFiles {sent : List Event} {fs : FileSystem} (h : Sound document ⟨stage, queue⟩)
    (hfiles : TellUpdate document (queue ++ sent) ∨ (stage.withFiles fs).Current document) :
    Sound document ⟨stage.withFiles fs, queue ++ sent⟩ :=
  ⟨h.watches, h.remembered, hfiles⟩

/-- A sound situation stays sound, whatever happens next. -/
theorem Sound.step (h : Sound document s) (hstep : Step document s s') : Sound document s' := by
  cases hstep with
  | replace hread hsent => exact h.withFiles (.inl (tellUpdate_append_iff.mpr (.inr hsent)))
  | @remove stage queue sent fs cause hread =>
    -- Nothing can be loaded, so there is nothing that was not shown.
    refine h.withFiles (.inr fun w text _ hloaded => ?_)
    have hloaded : Storage.decode document (fs.read document) = .ok text := hloaded
    rw [hread] at hloaded
    cases cause <;> exact absurd hloaded (by simp [Storage.decode])
  | @other stage queue sent fs hread =>
    refine h.withFiles (h.upToDate.imp (fun htold => tellUpdate_append_iff.mpr (.inl htold)) ?_)
    intro hcurrent w text hw hloaded
    refine hcurrent w text hw ?_
    rw [← hloaded, Stage.loaded, Stage.loaded, ← hread]
    rfl
  | @handle stage e queue =>
    have hhandled := Stage.quiet_handle tell h.watches e
    by_cases hupdated : e.change? document = some .updated
    · rw [if_pos hupdated] at hhandled
      exact (sound_look h.remembered h.watches queue).of_quiet hhandled.symm
    · rw [if_neg hupdated] at hhandled
      have hwaits : Sound document ⟨stage, queue⟩ :=
        ⟨h.watches, h.remembered, h.upToDate.imp
          (fun htold => (tellUpdate_cons_iff.mp htold).resolve_left hupdated) id⟩
      exact hwaits.of_quiet hhandled.symm

/-- Every situation that can be reached is sound. -/
theorem Reachable.sound (h : Reachable document s) : Sound document s := by
  induction h with
  | first world refused queue => exact sound_first world refused queue
  | next _ hstep ih => exact ih.step hstep

/-- With no update waiting, the text of the document was rendered last. -/
theorem Sound.shown_eq (h : Sound document ⟨stage, queue⟩) (hqueue : ¬ TellUpdate document queue)
    {w : Watcher} {text : String} (hw : stage.watcher = .ok w)
    (hloaded : stage.loaded document = .ok text) :
    w.shown = some text ∧ stage.listener.heard.getLast? = some (render text) := by
  have hshown : w.shown = some text := h.upToDate.resolve_left hqueue w text hw hloaded
  exact ⟨hshown, by rw [h.remembered w hw, hshown]; rfl⟩

/-! ### Queues run dry -/

/-- The watcher may take all events that wait, one after the other. -/
theorem Reachable.handleAll (h : Reachable document ⟨stage, queue⟩) :
    Reachable document ⟨stage.advance fun w => w.handleAll tell queue, []⟩ := by
  induction queue generalizing stage with
  | nil =>
    have hsame : (stage.advance fun w => w.handleAll tell []) = stage := stage.advance_pure
    rwa [hsame]
  | cons e queue ih =>
    simp only [Watcher.handleAll]
    rw [Stage.advance_bind]
    exact ih (h.next .handle)

/-- The watcher leaves the document as it is. -/
theorem loaded_handleAll (hwatches : stage.Watches document) (queue : List Event) :
    (stage.advance fun w => w.handleAll tell queue).loaded document = stage.loaded document := by
  have hhandled := Stage.quiet_handleAll blind_tell queue hwatches
  by_cases htold : TellUpdate document queue
  · rw [if_pos htold] at hhandled
    rw [Stage.loaded_congr hhandled, Stage.loaded_look blind_tell hwatches]
  · rw [if_neg htold] at hhandled
    rw [Stage.loaded_congr hhandled]

/-- **The watcher loses no update.**  Whatever happened in whatever order, as long as no rendering
    was refused: if no update waits, the text of the document is remembered and its rendering was
    told last; and if updates wait, that is so when they are dealt with. -/
theorem Reachable.no_update_lost (h : Reachable document ⟨stage, queue⟩) :
    (∀ w text, stage.watcher = .ok w → stage.loaded document = .ok text →
      ¬ TellUpdate document queue →
        w.shown = some text ∧ stage.listener.heard.getLast? = some (render text)) ∧
    (∀ after w text, (stage.advance fun w => w.handleAll tell queue) = after →
      after.watcher = .ok w → stage.loaded document = .ok text →
        w.shown = some text ∧ after.listener.heard.getLast? = some (render text)) := by
  constructor
  · intro w text hw hloaded hqueue
    exact h.sound.shown_eq hqueue hw hloaded
  · rintro after w text rfl hw hloaded
    refine h.handleAll.sound.shown_eq (not_tellUpdate_nil document) hw ?_
    rw [loaded_handleAll h.sound.watches, hloaded]

/-! ### A sample -/

/-- An event that tells of a modified document. -/
def sampleEvent (what : Modification) : Event :=
  ⟨.modify what, [sampleDocument]⟩

/-- A watch of an empty document that was replaced twice before the watcher took an event. -/
def sampleStage : Stage :=
  let first :=
    Stage.start (World.ofFiles (sampleFiles "")) ⟨none, []⟩
      (Watcher.reload tell ⟨sampleDocument, none⟩)
  let replaced := (first.withFiles (sampleFiles "#group g")).withFiles (sampleFiles "#endfile")
  (replaced.advance fun w => w.handle tell (sampleEvent .data)).advance fun w =>
    w.handle tell (sampleEvent .data)

/-- The document may be saved with any text, and one event tells of it. -/
theorem Reachable.save (h : Reachable sampleDocument ⟨stage, queue⟩) (text : String) :
    Reachable sampleDocument
      ⟨stage.withFiles (sampleFiles text), queue ++ [sampleEvent .data]⟩ := by
  have hread : (sampleFiles text).read sampleDocument = .ok text.toUTF8 := rfl
  have hsent : TellUpdate sampleDocument [sampleEvent .data] := by decide
  exact h.next (.replace hread hsent)

/-- The watch was told of both changes, and an event waits that is no update. -/
theorem sampleStage_reachable :
    Reachable sampleDocument ⟨sampleStage, [sampleEvent .metadata]⟩ := by
  have hfirst : Reachable sampleDocument ⟨_, []⟩ := .first (World.ofFiles (sampleFiles "")) none []
  have hreplaced := (hfirst.save "#group g").save "#endfile"
  have hmetadata : Reachable sampleDocument ⟨_, _ ++ [sampleEvent .metadata]⟩ :=
    hreplaced.next (.other rfl)
  exact (hmetadata.next .handle).next .handle

/-- The text of the second save is the one rendered last. -/
theorem no_update_lost_sample :
    sampleStage.watcher = .ok ⟨sampleDocument, some "#endfile"⟩ ∧
      sampleStage.loaded sampleDocument = .ok "#endfile" ∧
        ¬ TellUpdate sampleDocument [sampleEvent .metadata] ∧
          sampleStage.listener.heard.getLast? = some (render "#endfile") := by
  have hwatcher : sampleStage.watcher = .ok ⟨sampleDocument, some "#endfile"⟩ := by rfl
  have hloaded : sampleStage.loaded sampleDocument = .ok "#endfile" := by rfl
  have hqueue : ¬ TellUpdate sampleDocument [sampleEvent .metadata] := by decide
  have hlast := sampleStage_reachable.no_update_lost.1 _ _ hwatcher hloaded hqueue
  exact ⟨hwatcher, hloaded, hqueue, hlast.2⟩

end Flashcards.Watch
