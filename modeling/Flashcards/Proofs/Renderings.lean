import Flashcards.Proofs.Courses
import Flashcards.Proofs.Histories

namespace Flashcards.Watch

open Flashcards.Markup

/-!
# What is rendered in the course of a watch

Whoever is told of the renderings is told of the changes of the document, and of nothing else.
What the log is told besides is left out: stages are compared by `Stage.quiet`, and of the world
after a command only the files and the output are told.

* `Stage.presentAll_tell`, `Stage.presentAll_tell_refused` — a listener is told of all texts, or of
  those before the one that is refused.
* `Stage.heard_edits` — what was heard at the start and because of each edit is all that was heard.
* `start_open_of_ok` — a file is watched under its path from the root.
* `quiet_occurAll_start_eq` — a watch with any delivery that leaves the files alone.
* `listen_eq`, `listen_refused_eq`, `print_eq` — a history told to a listener, and printed.
* `execute_follow` — the command `watch` and what it writes.
* `renderings_of_history` — **the renderings of a watch are those of the document's history**.
-/

variable {deliver : String → ExceptT Failure Audience Unit} {file document : Path} {s : Stage}
  {w : Watcher} {text : String} {texts : List String} {files : FileSystem} {content : ByteArray}
  {es : List Edit} {accepted : ByteArray}

namespace Stage

/-! ### Listeners -/

/-- A listener who refuses none of the next renderings is told of all of them. -/
theorem presentAll_tell (hw : s.watcher = .ok w) (texts : List String)
    (hrefused : ∀ k, s.listener.refused = some k →
      s.listener.heard.length + texts.length < k) :
    ∃ after, s.presentAll tell texts =
      ⟨.ok after, { s.listener with heard := s.listener.heard ++ texts.map render }, s.world⟩ := by
  induction texts generalizing s w with
  | nil => exact ⟨w, by simp [presentAll, ← hw]⟩
  | cons text texts ih =>
    have hnext : s.listener.refused ≠ some (s.listener.heard.length + 1) := by
      intro hrefuse
      have hlate := hrefused _ hrefuse
      simp only [List.length_cons] at hlate
      omega
    have htold := present_tell hw text
    rw [if_neg hnext] at htold
    obtain ⟨after, hafter⟩ := ih (s := s.present tell text) (by rw [htold]) (by
      intro k hrefuse
      rw [htold] at hrefuse ⊢
      have hlate := hrefused k hrefuse
      simp only [List.length_cons, List.length_append, List.length_nil] at hlate ⊢
      omega)
    refine ⟨after, ?_⟩
    show (s.present tell text).presentAll tell texts = _
    rw [hafter, htold]
    simp

/-- A watch that has ended delivers nothing. -/
theorem presentAll_of_error {e : Failure} (hw : s.watcher = .error e) (texts : List String) :
    s.presentAll deliver texts = s := by
  rw [presentAll_eq, advance_of_error hw]

/-- A listener who refuses one of the next renderings is told of those before it, and the watch
    ends. -/
theorem presentAll_tell_refused {k : Nat} (hw : s.watcher = .ok w) (hk : k < texts.length)
    (hrefused : s.listener.refused = some (s.listener.heard.length + k + 1)) :
    s.presentAll tell texts =
      ⟨.error (.listener "output closed"),
        { s.listener with heard := s.listener.heard ++ (texts.take k).map render }, s.world⟩ := by
  have htaken : (texts.take k).length = k := List.length_take_of_le hk.le
  obtain ⟨after, hafter⟩ := presentAll_tell hw (texts.take k) (by
    intro k' hrefuse
    rw [hrefused, Option.some.injEq] at hrefuse
    omega)
  have hend : (s.presentAll tell (texts.take k)).present tell texts[k] =
      ⟨.error (.listener "output closed"),
        { s.listener with heard := s.listener.heard ++ (texts.take k).map render }, s.world⟩ := by
    have hnext : s.listener.refused =
        some ((s.listener.heard ++ (texts.take k).map render).length + 1) := by
      rw [hrefused, List.length_append, List.length_map, htaken]
    rw [hafter, present_tell rfl, if_pos hnext]
  -- The texts before the refused one are told, and those behind it are not delivered.
  calc s.presentAll tell texts
      = s.presentAll tell (texts.take k ++ texts[k] :: texts.drop (k + 1)) := by simp
    _ = ((s.presentAll tell (texts.take k)).present tell texts[k]).presentAll tell
          (texts.drop (k + 1)) := presentAll_append s _ _
    _ = _ := by rw [hend, presentAll_of_error rfl]

end Stage

/-! ### The output -/

/-- The bytes of a frame are those of its separator and those of the rendering. -/
theorem toUTF8_frame (accepted : ByteArray) (rendered : String) :
    accepted ++ (frame rendered).toUTF8 =
      accepted ++ (separator ++ "\n").toUTF8 ++ rendered.toUTF8 := by
  simp [frame, ByteArray.append_assoc]

/-- An output that takes everything takes a frame. -/
theorem printFrame_run {world : World} (hout : world.out = ⟨none, accepted⟩)
    (rendered : String) (l : Listener) :
    ((printFrame rendered : ExceptT Failure Audience Unit).run.run l).run world =
      ((.ok (), l), { world with out := ⟨none, accepted ++ (frame rendered).toUTF8⟩ }) := by
  rcases world with ⟨files, out, log⟩
  obtain rfl : out = ⟨none, accepted⟩ := hout
  rw [toUTF8_frame]
  rfl

namespace Stage

/-- An output that takes everything gets the frame of a rendering. -/
theorem present_printFrame (hw : s.watcher = .ok w) (hout : s.world.out = ⟨none, accepted⟩)
    (text : String) :
    s.present printFrame text =
      ⟨.ok { w with shown := some text }, s.listener,
        { s.world with out := ⟨none, accepted ++ (frame (render text)).toUTF8⟩ }⟩ := by
  rw [present, advance_of_ok hw, start_bind, printFrame_run hout]
  rfl

/-- An output that takes everything gets the frames of all renderings. -/
theorem presentAll_printFrame (hw : s.watcher = .ok w) (hout : s.world.out = ⟨none, accepted⟩)
    (texts : List String) :
    ∃ after, s.presentAll printFrame texts =
      ⟨.ok after, s.listener,
        { s.world with
          out := ⟨none, accepted ++
            (String.join (texts.map fun text => frame (render text))).toUTF8⟩ }⟩ := by
  induction texts generalizing s w accepted with
  | nil =>
    refine ⟨w, ?_⟩
    rcases s with ⟨watcher, l, files, out, log⟩
    obtain rfl : watcher = .ok w := hw
    obtain rfl : out = ⟨none, accepted⟩ := hout
    simp [presentAll]
  | cons text texts ih =>
    have hprinted := present_printFrame hw hout text
    obtain ⟨after, hafter⟩ := ih (s := s.present printFrame text) (by rw [hprinted])
      (by rw [hprinted])
    refine ⟨after, ?_⟩
    show (s.present printFrame text).presentAll printFrame texts = _
    rw [hafter, hprinted]
    simp [ByteArray.append_assoc]

/-- A rendering is printed and then told. -/
theorem present_printAndTell (hw : s.watcher = .ok w) (hout : s.world.out = ⟨none, accepted⟩)
    (hrefused : s.listener.refused = none) (text : String) :
    s.present printAndTell text =
      ⟨.ok { w with shown := some text },
        { s.listener with heard := s.listener.heard ++ [frame (render text)] },
        { s.world with out := ⟨none, accepted ++ (frame (render text)).toUTF8⟩ }⟩ := by
  rw [present, advance_of_ok hw, printAndTell, bind_assoc, start_bind, printFrame_run hout]
  dsimp only
  rw [start_tell_bind, if_neg (by simp [hrefused]), start_pure]

/-- A listener who refuses nothing is told of all that is printed. -/
theorem presentAll_printAndTell (hw : s.watcher = .ok w) (hout : s.world.out = ⟨none, accepted⟩)
    (hrefused : s.listener.refused = none) (texts : List String) :
    (s.presentAll printAndTell texts).listener.heard =
      s.listener.heard ++ texts.map fun text => frame (render text) := by
  induction texts generalizing s w accepted with
  | nil => simp [presentAll]
  | cons text texts ih =>
    have hprinted := present_printAndTell hw hout hrefused text
    have hrest := ih (s := s.present printAndTell text) (by rw [hprinted]) (by rw [hprinted])
      (by rw [hprinted, hrefused])
    show ((s.present printAndTell text).presentAll printAndTell texts).listener.heard = _
    rw [hrest, hprinted]
    simp

end Stage

/-! ### What was heard -/

/-- Steps that take back nothing of what the listener heard. -/
def Grows {α : Type} (act : ExceptT Failure Audience α) : Prop :=
  ∀ l world, l.heard <+: ((act.run.run l).run world).1.2.heard

/-- Steps take back nothing if none of their parts does. -/
theorem Grows.bind {α β : Type} {act : ExceptT Failure Audience α}
    {next : α → ExceptT Failure Audience β} (hact : Grows act) (hnext : ∀ a, Grows (next a)) :
    Grows (act >>= next) := by
  intro l world
  have hheard := hact l world
  simp only [ExceptT.run, StateT.run, Bind.bind, ExceptT.bind, ExceptT.mk, StateT.bind]
    at hheard ⊢
  rcases hrun : act l world with ⟨⟨result, l'⟩, world'⟩
  rw [hrun] at hheard
  cases result with
  | error e => exact hheard
  -- What the second part heard goes on from what the first part left.
  | ok a => exact hheard.trans (hnext a l' world')

theorem grows_pure {α : Type} (a : α) : Grows (pure a) :=
  fun _ _ => List.prefix_rfl

/-- A rendering that is refused changes nothing, and any other one comes last. -/
theorem grows_tell (rendered : String) : Grows (tell rendered) := by
  intro l world
  rw [tell_run]
  split
  · exact List.prefix_rfl
  · exact List.prefix_append _ _

theorem grows_printOut (printed : String) : Grows (printOut printed) :=
  fun _ _ => List.prefix_rfl

theorem grows_logRecords (rs : List Record) : Grows (logRecords rs) := by
  induction rs with
  | nil => exact grows_pure ()
  | cons r rs ih =>
    have hfirst : Grows (logRecord r) := fun _ _ => List.prefix_rfl
    exact hfirst.bind fun _ => ih

theorem grows_printFrame (rendered : String) : Grows (printFrame rendered) := by
  have hflush : Grows (orFail .output Host.flush) := fun _ _ => List.prefix_rfl
  exact (grows_printOut _).bind fun _ => (grows_printOut _).bind fun _ => hflush

theorem grows_printAndTell (rendered : String) : Grows (printAndTell rendered) :=
  (grows_printFrame _).bind fun _ => grows_tell _

/-- A look at the document takes back nothing that was heard. -/
theorem grows_reload (hgrows : ∀ rendered, Grows (deliver rendered)) (w : Watcher) :
    Grows (w.reload deliver) := by
  have hload : Grows (ExceptT.lift (Storage.load w.document)) := fun _ _ => List.prefix_rfl
  refine hload.bind fun loaded => ?_
  cases loaded with
  | error e => exact (grows_logRecords [_]).bind fun _ => grows_pure w
  | ok text =>
    dsimp only
    split
    · exact grows_pure w
    · exact (grows_logRecords _).bind fun _ => (hgrows _).bind fun _ => grows_pure _

theorem grows_handle (hgrows : ∀ rendered, Grows (deliver rendered)) (w : Watcher) (e : Event) :
    Grows (w.handle deliver e) := by
  unfold Watcher.handle
  split
  · exact grows_reload hgrows w
  · exact (grows_logRecords [_]).bind fun _ => grows_pure w
  · exact grows_pure w

/-- Whatever events come, nothing that was heard is taken back. -/
theorem grows_handleAll (hgrows : ∀ rendered, Grows (deliver rendered)) (es : List Event)
    (w : Watcher) : Grows (w.handleAll deliver es) := by
  induction es generalizing w with
  | nil => exact grows_pure w
  | cons e es ih => exact (grows_handle hgrows w e).bind ih

namespace Stage

/-- Nothing that was heard is taken back because of an edit. -/
theorem heard_edit (hgrows : ∀ rendered, Grows (deliver rendered)) (file : Path) (s : Stage)
    (e : Edit) : s.listener.heard <+: (s.edit deliver file e).listener.heard := by
  rcases s with ⟨err | w, l, world⟩
  · exact List.prefix_rfl
  · exact grows_handleAll hgrows _ w l _

/-- What was heard before and because of each edit is all that was heard. -/
theorem heard_edits (hgrows : ∀ rendered, Grows (deliver rendered)) (s : Stage)
    (es : List Edit) :
    s.listener.heard ++ (s.edits deliver file es).1.flatten =
      (s.edits deliver file es).2.listener.heard := by
  induction es generalizing s with
  | nil => simp [edits]
  | cons e es ih =>
    obtain ⟨heard, hheard⟩ := heard_edit hgrows file s e
    show s.listener.heard ++ (((s.edit deliver file e).listener.heard.drop
      s.listener.heard.length) ++ ((s.edit deliver file e).edits deliver file es).1.flatten)
        = ((s.edit deliver file e).edits deliver file es).2.listener.heard
    rw [← ih, ← hheard, List.drop_left, List.append_assoc]

/-- Edits after the end of a watch are not dealt with. -/
theorem edits_of_error {e : Failure} (deliver : String → ExceptT Failure Audience Unit)
    (file : Path) (hw : s.watcher = .error e) (es : List Edit) :
    (s.edits deliver file es).2.watcher = .error e ∧
      (s.edits deliver file es).2.listener = s.listener := by
  induction es generalizing s with
  | nil => exact ⟨hw, rfl⟩
  | cons edit es ih =>
    -- The files change all the same, but nobody looks at them.
    have hended : (s.withFiles (edit.apply file s.world.files)).watcher = .error e := hw
    have hnext : s.edit deliver file edit = s.withFiles (edit.apply file s.world.files) :=
      advance_of_error hended _
    have hwatcher : (s.edit deliver file edit).watcher = .error e := by rw [hnext, ← hw]; rfl
    obtain ⟨hlast, hlistener⟩ := ih hwatcher
    refine ⟨hlast, hlistener.trans ?_⟩
    rw [hnext]
    rfl

/-- A watch that is stopped ends as it stands. -/
theorem watcher_stop (s : Stage) : (s.advance Watcher.stop).watcher = s.watcher := by
  rcases s with ⟨_ | _, _, _⟩ <;> rfl

end Stage

/-! ### First looks -/

theorem remembers_opened (document : Path) (l : Listener) (world : World) :
    (opened document l world).Remembers document none := by
  rintro w ⟨⟩
  rfl

/-- A world whose log was told that a watch begins. -/
def watching (document : Path) (world : World) : World :=
  { world with log := world.log ++ [watchingRecord document] }

/-- A file is watched under its path from the root, if it is found. -/
theorem open_run (file : Path) (l : Listener) (world : World) :
    ((Watcher.open? file : ExceptT Failure Audience Watcher).run.run l).run world =
      match world.files.canonicalize file with
      | .ok document => ((.ok ⟨document, none⟩, l), watching document world)
      | .error e => ((.error (.watch e), l), world) := by
  have hfound : ((orFail .watch (Host.canonicalize file) :
      ExceptT Failure Audience Path).run.run l).run world =
        (((world.files.canonicalize file).mapError .watch, l), world) := rfl
  simp only [ExceptT.run, StateT.run] at hfound
  simp only [Watcher.open?, ExceptT.run, StateT.run, bind, ExceptT.bind, ExceptT.mk, StateT.bind,
    hfound]
  cases world.files.canonicalize file <;> rfl

/-- A watch begins with a look at the file, under its path from the root. -/
theorem start_open_of_ok {world : World} (hfound : world.files.canonicalize file = .ok document)
    (l : Listener) :
    Stage.start world l (do (← Watcher.open? file).reload deliver) =
      (opened document l (watching document world)).look deliver := by
  rw [Stage.start_bind, open_run, hfound]
  rfl

/-- A file that is not found ends the watch before its first look. -/
theorem start_open_of_error {world : World} {e : FileError}
    (hfound : world.files.canonicalize file = .error e) (l : Listener) :
    Stage.start world l (do (← Watcher.open? file).reload deliver) =
      ⟨.error (.watch e), l, world⟩ := by
  rw [Stage.start_bind, open_run, hfound]

/-- More is said of a failure, and nothing else is done. -/
theorem inContext_run {α : Type} (words : String) (act : ExceptT Failure Audience α)
    (l : Listener) (world : World) :
    ((inContext words act).run.run l).run world =
      ((((act.run.run l).run world).1.1.mapError (.context words),
        ((act.run.run l).run world).1.2), ((act.run.run l).run world).2) :=
  rfl

/-- The watcher of the command is that of a file that can be loaded and found. -/
theorem start_watcherOf {world : World} (hloaded : world.files.load file = .ok text)
    (hfound : world.files.canonicalize file = .ok document) (l : Listener) :
    Stage.start world l (do (← watcherOf file).reload deliver) =
      (opened document l (watching document world)).look deliver := by
  have hload : ((orFail .storage (Storage.load file) :
      ExceptT Failure Audience String).run.run l).run world =
        (((world.files.load file).mapError .storage, l), world) := rfl
  rw [watcherOf, bind_assoc, Stage.start_bind, hload, hloaded]
  show Stage.start world l (inContext _ (Watcher.open? file) >>= _) = _
  rw [Stage.start_bind, inContext_run, open_run, hfound]
  rfl

/-! ### Histories -/

/-- A file can be loaded just if it can be read and holds a text. -/
theorem load_eq_ok_iff {p : Path} :
    files.load p = .ok text ↔
      ∃ content, files.read p = .ok content ∧ textOf? content = some text := by
  rw [FileSystem.load]
  cases files.read p with
  | error cause => cases cause <;> simp [Storage.decode]
  | ok content =>
    simp only [Except.ok.injEq, exists_eq_left']
    constructor
    · intro hloaded
      rw [← toOption_decode p, hloaded]
      rfl
    · intro htext
      exact decode_of_textOf? htext p

/-- The texts that are delivered in the course of a watch. -/
def shownTexts (content : ByteArray) (es : List Edit) : List String :=
  (textsOf content es).destutter (· ≠ ·)

/-- The text of the start is shown, and then all changes of it. -/
theorem shownTexts_eq_cons (htext : textOf? content = some text) (es : List Edit) :
    shownTexts content es = text :: changes (some text) (es.filterMap Edit.text?) := by
  rw [shownTexts, textsOf_eq, htext, ← changes_none]
  exact if_neg (by simp)

section Histories

variable (hread : files.read file = .ok content) (hfound : files.canonicalize file = .ok document)

include hread hfound

/-- **A watch makes the deliveries of the shown texts** and no others, one after the other and until
    one of them fails. -/
theorem quiet_occurAll_start_eq {os : List Occurrence}
    (hblind : ∀ rendered, Blind (deliver rendered)) (hspares : ∀ o ∈ os, o.edit.Spares file files)
    (htold : ∀ o ∈ os, o.Told document) (l : Listener) (world : World)
    (hworld : world.files = files) :
    ((Stage.start world l (do (← Watcher.open? file).reload deliver)).occurAll
        deliver file os).quiet =
      ((Stage.start world l (do
        (shownTexts content (os.map Occurrence.edit)).forM fun text => deliver (render text)
        return ⟨document, (shownTexts content (os.map Occurrence.edit)).getLast?⟩)).withFiles
          ((os.map Occurrence.edit).foldl (Edit.apply file) files)).quiet := by
  subst hworld
  obtain ⟨place, hwatched⟩ := exists_watchedAs hread hfound
  have hlast := Stage.quiet_occurAll_look_eq hblind
    (remembers_opened document l (watching document world)) hwatched hread hspares htold
  -- That the watch begins is all that the log is told before the first look.
  have hopened : (opened document l (watching document world)).quiet =
      (opened document l world).quiet := rfl
  rw [Stage.quiet_withFiles, Stage.quiet_presentAll hblind hopened, Stage.presentAll_eq] at hlast
  rw [start_open_of_ok hfound, hlast, ← Stage.quiet_withFiles]
  show ((Stage.start world l _).withFiles _).quiet = _
  simp only [Option.or_none, shownTexts]
  rfl

/-- The edits of a history, with the events that are sent of them. -/
theorem quiet_edits_look_eq (hblind : ∀ rendered, Blind (deliver rendered))
    (hspares : ∀ e ∈ es, e.Spares file files) (l : Listener) (world : World)
    (hworld : world.files = files) :
    (((opened document l world).look deliver).edits deliver file es).2.quiet =
      (((opened document l world).presentAll deliver (shownTexts content es)).withFiles
        (es.foldl (Edit.apply file) files)).quiet := by
  subst hworld
  obtain ⟨place, hwatched⟩ := exists_watchedAs hread hfound
  have hopened := remembers_opened document l world
  obtain ⟨os, rfl, htold, hlast⟩ := Stage.exists_occurrences hblind
    (Stage.settled_look hblind hopened) hwatched hspares
  rw [hlast]
  refine Stage.quiet_occurAll_look_eq hblind hopened hwatched hread (fun o ho => ?_) htold
  exact hspares o.edit (List.mem_map_of_mem ho)

end Histories

/-- A history told to a listener begins with a look at the file. -/
theorem start_listenTo (hfound : files.canonicalize file = .ok document) (refused : Option Nat) :
    Stage.start (World.ofFiles files) ⟨refused, []⟩ (listenTo file) =
      (opened document ⟨refused, []⟩ (watching document (World.ofFiles files))).look tell :=
  start_open_of_ok hfound ⟨refused, []⟩

/-- What a history told to a listener comes to is seen at its last stage. -/
theorem listen_of_last {refused : Option Nat} {last : Stage}
    (hlast : ((Stage.start (World.ofFiles files) ⟨refused, []⟩ (listenTo file)).edits
      tell file es).2.quiet = last.quiet) :
    (listen file files refused es).initial ++ (listen file files refused es).steps.flatten =
        last.listener.heard ∧
      (listen file files refused es).ending = last.watcher.map fun _ => () := by
  obtain ⟨hwatcher, hlistener, -, -⟩ := Stage.quiet_eq_quiet_iff.mp hlast
  rw [← hwatcher, ← hlistener]
  refine ⟨Stage.heard_edits grows_tell _ es, ?_⟩
  rw [← Stage.watcher_stop]
  rfl

section Listeners

variable (hread : files.read file = .ok content) (hfound : files.canonicalize file = .ok document)
  (hspares : ∀ e ∈ es, e.Spares file files)

include hread hfound hspares

/-- A listener who refuses none of the renderings is told of all of them. -/
theorem listen_eq {refused : Option Nat}
    (hrefused : ∀ k, refused = some k → (shownTexts content es).length < k) :
    (listen file files refused es).initial ++ (listen file files refused es).steps.flatten =
        (shownTexts content es).map render ∧
      (listen file files refused es).ending = .ok () := by
  have hlast := quiet_edits_look_eq hread hfound blind_tell hspares ⟨refused, []⟩
    (watching document (World.ofFiles files)) rfl
  obtain ⟨after, hafter⟩ := Stage.presentAll_tell
    (s := opened document ⟨refused, []⟩ (watching document (World.ofFiles files))) rfl
    (shownTexts content es) (by simpa [opened] using hrefused)
  rw [← start_listenTo hfound, hafter] at hlast
  exact listen_of_last hlast

/-- A listener who refuses a rendering is told of those before it, and the watch ends. -/
theorem listen_refused_eq {k : Nat} (hk : k < (shownTexts content es).length) :
    (listen file files (some (k + 1)) es).initial ++
          (listen file files (some (k + 1)) es).steps.flatten =
        ((shownTexts content es).take k).map render ∧
      (listen file files (some (k + 1)) es).ending = .error (.listener "output closed") := by
  have hlast := quiet_edits_look_eq hread hfound blind_tell hspares ⟨some (k + 1), []⟩
    (watching document (World.ofFiles files)) rfl
  have hrefused : some (k + 1) = some (([] : List String).length + k + 1) := by simp
  rw [← start_listenTo hfound, Stage.presentAll_tell_refused rfl hk hrefused] at hlast
  exact listen_of_last hlast

/-- The command prints the frames of all renderings. -/
theorem print_eq (hloaded : files.load file = .ok text) :
    (print file files es).initial ++ (print file files es).steps.flatten =
      (shownTexts content es).map fun text => frame (render text) := by
  show (Stage.start (World.ofFiles files) ⟨none, []⟩ (printFrom file)).listener.heard ++
    ((Stage.start (World.ofFiles files) ⟨none, []⟩ (printFrom file)).edits
      printAndTell file es).1.flatten = _
  have hlast := quiet_edits_look_eq hread hfound blind_printAndTell hspares ⟨none, []⟩
    (watching document (World.ofFiles files)) rfl
  -- What was printed is what the listener heard by the last stage.
  rw [Stage.heard_edits grows_printAndTell, printFrom, start_watcherOf hloaded hfound,
    (Stage.quiet_eq_quiet_iff.mp hlast).2.1]
  exact Stage.presentAll_printAndTell rfl rfl rfl _

end Listeners

/-- A file that is not found is not watched, and nobody is told of anything. -/
theorem listen_of_not_found {e : FileError} (hfound : files.canonicalize file = .error e)
    (refused : Option Nat) (es : List Edit) :
    (listen file files refused es).initial ++ (listen file files refused es).steps.flatten = [] ∧
      (listen file files refused es).ending = .error (.watch e) := by
  have hfirst : Stage.start (World.ofFiles files) ⟨refused, []⟩ (listenTo file) =
      ⟨.error (.watch e), ⟨refused, []⟩, World.ofFiles files⟩ := start_open_of_error hfound _
  obtain ⟨hwatcher, hlistener⟩ := Stage.edits_of_error tell file (congrArg Stage.watcher hfirst) es
  obtain ⟨hheard, hending⟩ := listen_of_last
    (Eq.refl ((Stage.start (World.ofFiles files) ⟨refused, []⟩ (listenTo file)).edits
      tell file es).2.quiet)
  rw [hwatcher] at hending
  rw [hlistener, hfirst] at hheard
  exact ⟨hheard, hending⟩

/-! ### The command -/

/-- A host that makes a history of a file while the command watches it. -/
def follow (file : Path) (os : List Occurrence) (w : Watcher) : ExceptT Failure Session Unit :=
  ExceptT.mk fun world =>
    let last := Stage.occurAll printFrame file ⟨.ok w, ⟨none, []⟩, world⟩ os
    (last.watcher.map fun _ => (), last.world)

section Command

variable {os : List Occurrence} (hspares : ∀ o ∈ os, o.edit.Spares file files)
  (htold : ∀ o ∈ os, o.Told document)

include hspares htold

/-- After its first look the command goes on to write the frames of all changes. -/
theorem follow_run {place : Place} (hwatched : WatchedAs files file document place)
    (hloaded : files.load document = .ok text) (accepted : ByteArray) (log : List Record) :
    ∃ after, (follow file os ⟨document, some text⟩).run ⟨files, ⟨none, accepted⟩, log⟩ =
        (.ok (), after) ∧
      after.files = (os.map Occurrence.edit).foldl (Edit.apply file) files ∧
      after.out = ⟨none, accepted ++ (String.join
        ((changes (some text) ((os.map Occurrence.edit).filterMap Edit.text?)).map
          fun text => frame (render text))).toUTF8⟩ := by
  -- After the first look the document holds what was shown, so that only changes are left to do.
  have hsettled : Stage.Settled document files (some text)
      ⟨.ok ⟨document, some text⟩, ⟨none, []⟩, ⟨files, ⟨none, accepted⟩, log⟩⟩ := by
    refine ⟨?_, .refl _, ?_⟩
    · rintro w ⟨⟩
      rfl
    · rintro w found ⟨⟩ hfound
      exact congrArg some (Except.ok.inj (hloaded.symm.trans hfound))
  have hlast := hsettled.quiet_occurAll_eq blind_printFrame hwatched hspares htold
  obtain ⟨after, hafter⟩ := Stage.presentAll_printFrame
    (s := ⟨.ok ⟨document, some text⟩, ⟨none, []⟩, ⟨files, ⟨none, accepted⟩, log⟩⟩) rfl rfl
    (changes (some text) ((os.map Occurrence.edit).filterMap Edit.text?))
  rw [hafter] at hlast
  obtain ⟨hwatcher, -, hfiles, hout⟩ := Stage.quiet_eq_quiet_iff.mp hlast
  refine ⟨_, ?_, hfiles, hout⟩
  simp only [follow, ExceptT.run, ExceptT.mk, hwatcher]
  rfl

/-- **The command writes the frames of all renderings** behind what was written before. -/
theorem execute_follow (hread : files.read file = .ok content)
    (hfound : files.canonicalize file = .ok document) (htext : textOf? content = some text)
    (accepted : ByteArray) (log : List Record) :
    ∃ after, (execute (follow file os) (.watch file)).run ⟨files, ⟨none, accepted⟩, log⟩ =
        (.ok .clean, after) ∧
      after.files = (os.map Occurrence.edit).foldl (Edit.apply file) files ∧
      after.out = ⟨none, accepted ++ (String.join
        ((shownTexts content (os.map Occurrence.edit)).map
          fun text => frame (render text))).toUTF8⟩ := by
  obtain ⟨place, hwatched⟩ := exists_watchedAs hread hfound
  have hloaded : files.load file = .ok text := load_eq_ok_iff.mpr ⟨content, hread, htext⟩
  have hloaded' : files.load document = .ok text :=
    load_eq_ok_iff.mpr ⟨content, hwatched.read_eq.trans hread, htext⟩
  have hfirst := follows_firstLook hloaded hfound log ⟨none, accepted⟩
  rw [Course.perform_of_unlimited, lookCourse, hloaded'] at hfirst
  obtain ⟨after, hrun, hfiles, hout⟩ := follow_run hspares htold hwatched hloaded'
    (accepted ++ (frame (render text)).toUTF8)
    (log ++ [watchingRecord document] ++ faultRecords (Document.ofText text))
  have hspoken : spoken [⟨separator ++ "\n", .output⟩, ⟨render text, .output⟩] =
      frame (render text) := by simp [spoken, frame]
  refine ⟨after, ?_, hfiles, ?_⟩
  · rw [execute, watchFile, ← bind_assoc, run_bind, hfirst]
    dsimp only
    rw [hspoken, run_bind, hrun]
    rfl
  · rw [hout, shownTexts_eq_cons htext]
    simp [ByteArray.append_assoc]

end Command

/-- **The renderings of a watch are those of the document's history.**  The texts that the document
    holds at the start and after each save are rendered, less those that cannot be loaded and
    those that are the same as the text rendered before.

    * Whoever is told of the renderings is told of these, one after the other; when one delivery
      fails, the watch ends with its failure and nothing more is delivered.
    * The command `watch` prints them, each below sixty `=`, and nothing else.  It fails at once
      when the document cannot be loaded.
    * A file whose path from the root cannot be told is not watched. -/
theorem renderings_of_history (hspares : ∀ e ∈ es, e.Spares file files) :
    (∀ content document, files.read file = .ok content →
      files.canonicalize file = .ok document →
        (∀ os : List Occurrence, os.map Occurrence.edit = es → (∀ o ∈ os, o.Told document) →
          (∀ deliver, (∀ rendered, Blind (deliver rendered)) → ∀ l world, world.files = files →
            ((Stage.start world l (do (← Watcher.open? file).reload deliver)).occurAll
                deliver file os).quiet =
              ((Stage.start world l (do
                (shownTexts content es).forM fun text => deliver (render text)
                return ⟨document, (shownTexts content es).getLast?⟩)).withFiles
                  (es.foldl (Edit.apply file) files)).quiet) ∧
          (∀ text, files.load file = .ok text → ∀ accepted log, ∃ after,
            (execute (follow file os) (.watch file)).run ⟨files, ⟨none, accepted⟩, log⟩ =
                (.ok .clean, after) ∧
              after.files = es.foldl (Edit.apply file) files ∧
              after.out = ⟨none, accepted ++ (String.join ((shownTexts content es).map fun text =>
                String.ofList (List.replicate 60 '=') ++ "\n" ++ render text)).toUTF8⟩)) ∧
        (∀ refused, (∀ k, refused = some k → (shownTexts content es).length < k) →
          (listen file files refused es).initial ++ (listen file files refused es).steps.flatten =
              (shownTexts content es).map render ∧
            (listen file files refused es).ending = .ok ()) ∧
        (∀ k, k < (shownTexts content es).length →
          (listen file files (some (k + 1)) es).initial ++
                (listen file files (some (k + 1)) es).steps.flatten =
              ((shownTexts content es).take k).map render ∧
            (listen file files (some (k + 1)) es).ending = .error (.listener "output closed")) ∧
        (∀ text, files.load file = .ok text →
          (print file files es).initial ++ (print file files es).steps.flatten =
            (shownTexts content es).map fun text =>
              String.ofList (List.replicate 60 '=') ++ "\n" ++ render text)) ∧
    (∀ e, files.load file = .error e → ∀ os out log,
      (execute (follow file os) (.watch file)).run ⟨files, out, log⟩ =
        (.error (.storage e), ⟨files, out, log⟩)) ∧
    (∀ e, files.canonicalize file = .error e →
      (∀ refused,
        (listen file files refused es).initial ++
              (listen file files refused es).steps.flatten = [] ∧
          (listen file files refused es).ending = .error (.watch e)) ∧
      (∀ text, files.load file = .ok text → ∀ os out log,
        (execute (follow file os) (.watch file)).run ⟨files, out, log⟩ =
          (.error (.context ("failed to watch " ++ file.text) (.watch e)),
            ⟨files, out, log⟩))) := by
  refine ⟨fun content document hread hfound => ⟨?_, ?_, ?_, ?_⟩, ?_, fun e hfound => ⟨?_, ?_⟩⟩
  · rintro os rfl htold
    have hspare : ∀ o ∈ os, o.edit.Spares file files :=
      fun o ho => hspares o.edit (List.mem_map_of_mem ho)
    constructor
    · intro deliver hblind l world hworld
      exact quiet_occurAll_start_eq hread hfound hblind hspare htold l world hworld
    · intro text hloaded accepted log
      obtain ⟨found, hread', htext⟩ := load_eq_ok_iff.mp hloaded
      obtain rfl : content = found := Except.ok.inj (hread.symm.trans hread')
      exact execute_follow hspare htold hread hfound htext accepted log
  · intro refused hrefused
    exact listen_eq hread hfound hspares hrefused
  · intro k hk
    exact listen_refused_eq hread hfound hspares hk
  · intro text hloaded
    exact print_eq hread hfound hspares hloaded
  · intro e hloaded os out log
    exact follows_watchFile_of_not_loaded (follow file os) hloaded log out
  · intro refused
    exact listen_of_not_found hfound refused es
  · intro text hloaded os out log
    exact follows_watchFile_of_not_found (follow file os) hloaded hfound log out

/-- A modification of the document's data. -/
def sampleUpdate : Event :=
  ⟨.modify .data, [sampleDocument]⟩

/-- The document is saved with other line ends, removed, made again, saved with bytes that are no
    text, and changed at last.  A removal may be told as an update, too. -/
def sampleHistory : List Occurrence :=
  [⟨.save "#endfile\r\n".toUTF8, [sampleUpdate]⟩, ⟨.remove, [sampleUpdate]⟩,
    ⟨.save "#endfile\n".toUTF8, [sampleUpdate, sampleUpdate]⟩,
    ⟨.other ⟨"notes.txt"⟩ "一".toUTF8, []⟩, ⟨.save ⟨#[0xff]⟩, [sampleUpdate]⟩,
    ⟨.save "#endfile".toUTF8, [sampleUpdate]⟩]

theorem shownTexts_sampleHistory :
    shownTexts "#endfile\n".toUTF8 (sampleHistory.map Occurrence.edit) =
      ["#endfile\n", "#endfile"] := by
  rfl

/-- The notes of the sample are no other name of the document. -/
theorem sampleHistory_spares :
    ∀ e ∈ sampleHistory.map Occurrence.edit, e.Spares sampleFile (sampleFiles "#endfile\n") := by
  have hnotes : (sampleFiles "#endfile\n").target ⟨"notes.txt"⟩ =
      .ok ["home", "cards", "notes.txt"] := rfl
  have hdocument : (sampleFiles "#endfile\n").target sampleFile =
      .ok ["home", "cards", "words.txt"] := rfl
  simp [sampleHistory, Edit.Spares, hnotes, hdocument]

theorem sampleHistory_told : ∀ o ∈ sampleHistory, o.Told sampleDocument := by
  have hupdate : sampleUpdate.change? sampleDocument = some .updated := by decide
  simp [sampleHistory, Occurrence.Told, TellUpdate, Edit.content?, hupdate]

/-- Two texts are rendered; whoever refuses the second has heard the first. -/
theorem renderings_of_sampleHistory :
    (∃ after,
      (execute (follow sampleFile sampleHistory) (.watch sampleFile)).run
          (World.ofFiles (sampleFiles "#endfile\n")) = (.ok .clean, after) ∧
        after.out.accepted = (String.ofList (List.replicate 60 '=') ++ "\n" ++
          String.ofList (List.replicate 60 '=') ++ "\n").toUTF8) ∧
      (listen sampleFile (sampleFiles "#endfile\n") (some 2)
        (sampleHistory.map Occurrence.edit)).ending = .error (.listener "output closed") := by
  have hread : (sampleFiles "#endfile\n").read sampleFile = .ok "#endfile\n".toUTF8 := rfl
  have hfound : (sampleFiles "#endfile\n").canonicalize sampleFile = .ok sampleDocument := rfl
  have hloaded : (sampleFiles "#endfile\n").load sampleFile = .ok "#endfile\n" := rfl
  have hempty : render "#endfile\n" = "" ∧ render "#endfile" = "" := by decide
  obtain ⟨hwatch, -, hrefused, -⟩ :=
    (renderings_of_history sampleHistory_spares).1 _ _ hread hfound
  obtain ⟨after, hrun, -, hout⟩ :=
    (hwatch sampleHistory rfl sampleHistory_told).2 _ hloaded ByteArray.empty []
  rw [shownTexts_sampleHistory] at hout hrefused
  refine ⟨⟨after, hrun, ?_⟩, (hrefused 1 (by decide)).2⟩
  rw [hout]
  simp [hempty]

end Flashcards.Watch
