import Flashcards.Markup.Registry

namespace Flashcards.Markup

open Flashcards.Text

/-!
# Soundness of the registry

* `Registry.Step` — what one accepted line does to the registry, guard by guard.
* `Registry.accept_eq_ok_iff` — a line is accepted exactly when there is such a step.
* `Registry.Sound` — the names, the places, the open group and the unfinished terms fit together.
* `Registry.Sound.step`, `Registry.Sound.readLines` — accepted lines keep a registry sound.
* `Registry.Sound.accept_ne_lost` — a sound registry finds every group that it refers to.
-/

/-- What is accepted does not depend on how refusals are told. -/
theorem mapError_eq_ok_iff {ε ε' α : Type} {f : ε → ε'} {x : Except ε α} {a : α} :
    x.mapError f = .ok a ↔ x = .ok a := by
  cases x with
  | error e =>
    show Except.error (f e) = .ok a ↔ _
    simp
  | ok b =>
    show Except.ok b = .ok a ↔ _
    simp

/-- An error with a new name is the image of the old one. -/
theorem mapError_eq_error_iff {ε ε' α : Type} {f : ε → ε'} {x : Except ε α} {e' : ε'} :
    x.mapError f = .error e' ↔ ∃ e, x = .error e ∧ f e = e' := by
  cases x with
  | error e =>
    show Except.error (f e) = .error e' ↔ _
    simp
  | ok b =>
    show Except.ok b = .error e' ↔ _
    simp

/-- A value made of another one comes of that. -/
theorem map_eq_ok_iff {ε α β : Type} {f : α → β} {x : Except ε α} {b : β} :
    x.map f = .ok b ↔ ∃ a, x = .ok a ∧ f a = b := by
  cases x <;> simp [Except.map]

/-- A value made of another one fails as that does. -/
theorem map_eq_error_iff {ε α β : Type} {f : α → β} {x : Except ε α} {e : ε} :
    x.map f = .error e ↔ x = .error e := by
  cases x <;> simp [Except.map]

namespace Registry

/-- One accepted line: the registry before it, the line, the registry after it and the text that
    it prints. -/
inductive Step (r : Registry) : String → Registry → String → Prop
  | blank : Step r "" r ""
  | comment {line : String} (hw : (words line).head? = some "##") : Step r line r ""
  | endFile {line : String} (hw : words line = [endOfFile]) (hc : r.current = none) :
      Step r line r ""
  | opening {line name : String} (hw : words line = ["#group", name]) (hc : r.current = none)
      (hn : r.places.lookup name = none) :
      Step r line
        ⟨r.groups.push (Group.empty name), (name, r.groups.size) :: r.places, some r.groups.size⟩
        ""
  | closing {line : String} {place : Nat} {g : Group} (hw : words line = ["#endgroup"])
      (hc : r.current = some place) (hg : r.groups[place]? = some g) (hd : g.isDirty = false) :
      Step r line { r with current := none } ""
  | showing {line name printed : String} {formats : List String} {place : Nat} {g : Group}
      (hw : words line = "#showgroup" :: name :: formats) (hc : r.current = none)
      (hn : r.places.lookup name = some place) (hg : r.groups[place]? = some g)
      (hp : g.display formats = .ok printed) : Step r line r printed
  | content {line : String} {place : Nat} {g : Group} (hl : IsContent line)
      (hc : r.current = some place) (hg : r.groups[place]? = some g) :
      Step r line { r with groups := r.groups.setIfInBounds place (g.addLine line) } ""

variable {r next : Registry} {line printed name : String} {arguments : List String}

/-! ### What each command accepts -/

/-- A group is opened outside all groups, under one name that is new. -/
theorem openGroup_eq_ok_iff :
    r.openGroup arguments = .ok next ↔
      ∃ name, arguments = [name] ∧ r.current = none ∧ r.places.lookup name = none ∧
        ⟨r.groups.push (Group.empty name), (name, r.groups.size) :: r.places,
          some r.groups.size⟩ = next := by
  unfold openGroup
  cases hc : r.current with
  | some place => simp
  | none =>
    match arguments with
    | [] => simp
    | _ :: _ :: _ => simp
    | [name] =>
      simp only [List.cons.injEq, and_true, true_and, exists_eq_left']
      cases hn : r.places.lookup name <;>
        simp only [Except.ok.injEq, reduceCtorEq, true_and, false_and]

/-- A group is closed that is open and has no unfinished term. -/
theorem closeGroup_eq_ok_iff :
    r.closeGroup arguments = .ok next ↔
      ∃ place g, arguments = [] ∧ r.current = some place ∧ r.groups[place]? = some g ∧
        g.isDirty = false ∧ { r with current := none } = next := by
  unfold closeGroup
  cases hc : r.current with
  | none => simp
  | some place =>
    cases arguments with
    | cons => simp
    | nil =>
      cases hg : r.groups[place]? with
      | none => simp [hg]
      | some g => cases hd : g.isDirty <;> simp [hg, hd]

/-- A group is shown outside all groups, by its name and in formats that it has. -/
theorem showGroup_eq_ok_iff :
    r.showGroup arguments = .ok printed ↔
      ∃ name formats place g, arguments = name :: formats ∧ r.current = none ∧
        r.places.lookup name = some place ∧ r.groups[place]? = some g ∧
        g.display formats = .ok printed := by
  unfold showGroup
  cases hc : r.current with
  | some place => simp
  | none =>
    cases arguments with
    | nil => simp
    | cons name formats =>
      dsimp only
      cases hn : r.places.lookup name with
      | none => grind
      | some place =>
        dsimp only
        cases hg : r.groups[place]? with
        | none => grind
        | some g =>
          simp only [mapError_eq_ok_iff, List.cons.injEq, true_and]
          constructor
          · intro hp
            exact ⟨name, formats, place, g, ⟨rfl, rfl⟩, hn, hg, hp⟩
          · rintro ⟨_, _, _, _, ⟨rfl, rfl⟩, hn', hg', hp⟩
            -- The place and the group on the right are those that were just found.
            obtain rfl : place = _ := Option.some.inj (hn.symm.trans hn')
            obtain rfl : g = _ := Option.some.inj (hg.symm.trans hg')
            exact hp

/-- A document ends outside all groups, without further words. -/
theorem endFile_eq_ok_iff {u : Unit} :
    r.endFile arguments = .ok u ↔ arguments = [] ∧ r.current = none := by
  unfold endFile
  cases r.current <;> cases arguments <;> simp

/-- Content goes to the open group. -/
theorem addContent_eq_ok_iff {text : String} :
    r.addContent text = .ok next ↔
      ∃ place g, r.current = some place ∧ r.groups[place]? = some g ∧
        { r with groups := r.groups.setIfInBounds place (g.addLine text) } = next := by
  unfold addContent
  cases hc : r.current with
  | none => simp
  | some place => cases hg : r.groups[place]? <;> simp [hg]

/-- A command that is accepted takes a step. -/
theorem step_of_ofCommand (hw : words line = name :: arguments)
    (h : r.acceptLine (.ofCommand name arguments) = .ok (next, printed)) :
    r.Step line next printed := by
  -- Each command accepts what its lemma above says; an unknown one accepts nothing.
  rcases Line.ofCommand_cases name arguments with
      ⟨rfl, hl⟩ | ⟨rfl, hl⟩ | ⟨rfl, hl⟩ | ⟨rfl, hl⟩ | ⟨rfl, hl⟩ | hl <;>
    rw [hl] at h <;>
    simp only [acceptLine, Except.ok.injEq, Prod.mk.injEq, reduceCtorEq, map_eq_ok_iff] at h
  · obtain ⟨rfl, rfl⟩ := h
    exact .comment (by simp [hw])
  · obtain ⟨_, hopen, rfl, rfl⟩ := h
    obtain ⟨_, rfl, hc, hn, rfl⟩ := openGroup_eq_ok_iff.mp hopen
    exact .opening hw hc hn
  · obtain ⟨_, hclose, rfl, rfl⟩ := h
    obtain ⟨_, _, rfl, hc, hg, hd, rfl⟩ := closeGroup_eq_ok_iff.mp hclose
    exact .closing hw hc hg hd
  · obtain ⟨_, hshow, rfl, rfl⟩ := h
    obtain ⟨_, _, _, _, rfl, hc, hn, hg, hp⟩ := showGroup_eq_ok_iff.mp hshow
    exact .showing hw hc hn hg hp
  · obtain ⟨_, hend, rfl, rfl⟩ := h
    obtain ⟨rfl, hc⟩ := endFile_eq_ok_iff.mp hend
    exact .endFile hw hc

/-- A line is accepted exactly when there is a step for it. -/
theorem accept_eq_ok_iff : r.accept line = .ok (next, printed) ↔ r.Step line next printed := by
  constructor
  · intro h
    unfold accept at h
    rcases Line.ofText_cases line with ⟨rfl, hl⟩ | ⟨hcontent, hl⟩ | ⟨name, arguments, hw, -, hl⟩ <;>
      rw [hl] at h
    · simp only [acceptLine, Except.ok.injEq, Prod.mk.injEq] at h
      obtain ⟨rfl, rfl⟩ := h
      exact .blank
    · simp only [acceptLine, map_eq_ok_iff, Prod.mk.injEq] at h
      obtain ⟨_, hadd, rfl, rfl⟩ := h
      obtain ⟨_, _, hc, hg, rfl⟩ := addContent_eq_ok_iff.mp hadd
      exact .content hcontent hc hg
    · exact step_of_ofCommand hw h
  · intro h
    unfold accept
    cases h with
    | blank => rfl
    | comment hw =>
      obtain ⟨arguments, hw⟩ := List.head?_eq_some_iff.mp hw
      rw [Line.ofText_of_words hw (by decide)]
      rfl
    | endFile hw hc =>
      have hend : r.endFile [] = .ok () := endFile_eq_ok_iff.mpr ⟨rfl, hc⟩
      rw [Line.ofText_of_words hw (by decide)]
      exact map_eq_ok_iff.mpr ⟨(), hend, rfl⟩
    | opening hw hc hn =>
      have hopen := openGroup_eq_ok_iff.mpr ⟨_, rfl, hc, hn, rfl⟩
      rw [Line.ofText_of_words hw (by decide)]
      exact map_eq_ok_iff.mpr ⟨_, hopen, rfl⟩
    | closing hw hc hg hd =>
      have hclose := closeGroup_eq_ok_iff.mpr ⟨_, _, rfl, hc, hg, hd, rfl⟩
      rw [Line.ofText_of_words hw (by decide)]
      exact map_eq_ok_iff.mpr ⟨_, hclose, rfl⟩
    | showing hw hc hn hg hp =>
      have hshow := showGroup_eq_ok_iff.mpr ⟨_, _, _, _, rfl, hc, hn, hg, hp⟩
      rw [Line.ofText_of_words hw (by decide)]
      exact map_eq_ok_iff.mpr ⟨_, hshow, rfl⟩
    | content hl hc hg =>
      have hadd : r.addContent line = .ok _ := addContent_eq_ok_iff.mpr ⟨_, _, hc, hg, rfl⟩
      rw [Line.ofText_of_isContent hl]
      exact map_eq_ok_iff.mpr ⟨_, hadd, rfl⟩

/-- A line leads to one registry and prints one text. -/
theorem Step.unique {next' : Registry} {printed' : String} (h : r.Step line next printed)
    (h' : r.Step line next' printed') : next = next' ∧ printed = printed' := by
  have hsame := (accept_eq_ok_iff.mpr h).symm.trans (accept_eq_ok_iff.mpr h')
  simpa using hsame

theorem readLines_nil_eq_ok_iff {n : Nat} {texts : List String} :
    r.readLines n [] = .ok (next, texts) ↔ r = next ∧ [] = texts := by
  simp [readLines]

/-- Lines are accepted one after the other. -/
theorem readLines_cons_eq_ok_iff {n : Nat} {rest : List String} {texts : List String} :
    r.readLines n (line :: rest) = .ok (next, texts) ↔
      ∃ r' printed more, r.accept line = .ok (r', printed) ∧
        r'.readLines (n + 1) rest = .ok (next, more) ∧ printed :: more = texts := by
  rw [readLines]
  cases ha : r.accept line with
  | error stop => cases stop <;> simp
  | ok p =>
    simp only [map_eq_ok_iff, Except.ok.injEq, Prod.mk.injEq, Prod.exists]
    constructor
    · rintro ⟨_, more, hr, rfl, ht⟩
      exact ⟨p.1, p.2, more, rfl, hr, ht⟩
    · rintro ⟨_, _, more, rfl, hr, ht⟩
      exact ⟨next, more, hr, rfl, ht⟩

/-! ### Commands that look no group up -/

/-- No reference is lost when a group is opened. -/
theorem openGroup_ne_lost (r : Registry) (arguments : List String) :
    r.openGroup arguments ≠ .error .lost := by
  unfold openGroup
  repeat' split
  all_goals simp

theorem endFile_ne_lost (r : Registry) (arguments : List String) :
    r.endFile arguments ≠ .error .lost := by
  unfold endFile
  repeat' split
  all_goals simp

/-! ### Sound registries -/

/-- The parts of a registry fit together.  A group that is not being written has no unfinished
    term, and a reading waits only after its headword. -/
structure Sound (r : Registry) : Prop where
  names_nodup : (r.groups.toList.map Group.name).Nodup
  name_isWord : ∀ g ∈ r.groups, g.name ≠ "" ∧ ' ' ∉ g.name.toList
  lookup_eq_some_iff : ∀ name place,
    r.places.lookup name = some place ↔ ∃ g, r.groups[place]? = some g ∧ g.name = name
  current_last : ∀ place, r.current = some place → place + 1 = r.groups.size
  others_complete : ∀ place g, r.groups[place]? = some g → r.current ≠ some place →
    g.pendingHeadword = none ∧ g.pendingReading = none
  current_ordered : ∀ place g, r.groups[place]? = some g → r.current = some place →
    g.pendingReading.isSome → g.pendingHeadword.isSome

/-- If every name has one place, no two groups have the same name. -/
theorem names_nodup_of_lookup
    (h : ∀ name place,
      r.places.lookup name = some place ↔ ∃ g, r.groups[place]? = some g ∧ g.name = name) :
    (r.groups.toList.map Group.name).Nodup := by
  rw [List.nodup_iff_pairwise_ne, List.pairwise_iff_getElem]
  intro i j hi hj hij heq
  -- Two groups of one name would both stand at the place of that name.
  simp only [List.length_map, Array.length_toList] at hi hj
  have h₁ : r.places.lookup r.groups[i].name = some i := (h _ i).mpr ⟨_, by simp [hi], rfl⟩
  have h₂ : r.places.lookup r.groups[i].name = some j :=
    (h _ j).mpr ⟨_, Array.getElem?_eq_getElem hj, by simpa using heq.symm⟩
  have hsame : i = j := Option.some.inj (h₁.symm.trans h₂)
  omega

theorem empty_sound : empty.Sound where
  names_nodup := List.nodup_nil
  name_isWord := by simp [empty]
  lookup_eq_some_iff := by simp [empty]
  current_last := by simp [empty]
  others_complete := by simp [empty]
  current_ordered := by simp [empty]

namespace Sound

/-- A name is free when no group has it. -/
theorem lookup_eq_none_iff (h : r.Sound) :
    r.places.lookup name = none ↔ name ∉ r.groups.toList.map Group.name := by
  rw [Option.eq_none_iff_forall_ne_some]
  simp only [ne_eq, h.lookup_eq_some_iff, List.mem_map, Array.mem_toList_iff,
    Array.mem_iff_getElem?]
  grind

/-- The places after a new group is added behind all others. -/
theorem lookup_push (h : r.Sound) (hn : r.places.lookup name = none) (name' : String)
    (place : Nat) :
    ((name, r.groups.size) :: r.places).lookup name' = some place ↔
      ∃ g, (r.groups.push (Group.empty name))[place]? = some g ∧ g.name = name' := by
  rw [Array.getElem?_push]
  by_cases hsame : name' = name
  · subst hsame
    -- The name was free, so among the groups so far nobody has it.
    have hold : ¬ ∃ g, r.groups[place]? = some g ∧ g.name = name' := by
      rw [← h.lookup_eq_some_iff, hn]
      exact (Option.some_ne_none place).symm
    by_cases hplace : place = r.groups.size
    · simp [hplace, Group.empty]
    · simp [hplace, Ne.symm hplace, hold]
  · have hbeq : (name' == name) = false := beq_eq_false_iff_ne.mpr hsame
    have hlookup := h.lookup_eq_some_iff name' place
    simp only [List.lookup_cons, hbeq, hlookup]
    by_cases hplace : place = r.groups.size
    · simp [hplace, Ne.symm hsame, Group.empty]
    · simp [hplace]

/-- A new group leaves a registry sound. -/
theorem opening (h : r.Sound) (hname : name ≠ "" ∧ ' ' ∉ name.toList) (hc : r.current = none)
    (hn : r.places.lookup name = none) :
    Sound ⟨r.groups.push (Group.empty name), (name, r.groups.size) :: r.places,
      some r.groups.size⟩ := by
  exact {
    names_nodup := names_nodup_of_lookup (h.lookup_push hn)
    name_isWord := by
      intro g hg
      rcases Array.mem_push.mp hg with hg | rfl
      · exact h.name_isWord g hg
      · exact hname
    lookup_eq_some_iff := h.lookup_push hn
    current_last := by simp
    others_complete := by
      intro place g hg hplace
      rw [Array.getElem?_push] at hg
      split at hg
      -- The last group is the open one, and `place` is not the place of that.
      · simp_all
      · exact h.others_complete place g hg (by simp [hc])
    current_ordered := by
      intro place g hg hplace
      rw [Array.getElem?_push] at hg
      split at hg
      · obtain rfl : Group.empty name = g := Option.some.inj hg
        simp [Group.empty]
      case isFalse hlast => exact absurd (Option.some.inj hplace).symm hlast }

/-- A complete group can be closed. -/
theorem closing {place : Nat} {g : Group} (h : r.Sound) (hc : r.current = some place)
    (hg : r.groups[place]? = some g) (hd : g.isDirty = false) :
    Sound { r with current := none } where
  names_nodup := h.names_nodup
  name_isWord := h.name_isWord
  lookup_eq_some_iff := h.lookup_eq_some_iff
  current_last := by simp
  current_ordered := by simp
  others_complete := by
    intro place' g' hg' _
    by_cases hplace : r.current = some place'
    -- The group that is closed has no headword waiting, hence no reading either.
    · obtain rfl : place = place' := Option.some.inj (hc.symm.trans hplace)
      obtain rfl : g = g' := Option.some.inj (hg.symm.trans hg')
      have hhead : g.pendingHeadword = none := by simpa [Group.isDirty] using hd
      have hordered := h.current_ordered place g hg hc
      refine ⟨hhead, ?_⟩
      simpa [hhead] using hordered
    · exact h.others_complete place' g' hg' hplace

/-- A line of content leaves a registry sound. -/
theorem content {place : Nat} {g : Group} (h : r.Sound) (hc : r.current = some place)
    (hg : r.groups[place]? = some g) (line : String) :
    Sound { r with groups := r.groups.setIfInBounds place (g.addLine line) } := by
  obtain ⟨hplace, -⟩ := Array.getElem?_eq_some_iff.mp hg
  -- One group changes, and its name does not.
  have hget : ∀ i, (r.groups.setIfInBounds place (g.addLine line))[i]? =
      if place = i then some (g.addLine line) else r.groups[i]? := by
    intro i
    rw [Array.getElem?_setIfInBounds, if_pos hplace]
  have hlookup : ∀ name i, r.places.lookup name = some i ↔
      ∃ g', (r.groups.setIfInBounds place (g.addLine line))[i]? = some g' ∧ g'.name = name := by
    intro name i
    rw [h.lookup_eq_some_iff, hget]
    by_cases hi : place = i
    · subst hi
      simp [hg]
    · simp [hi]
  exact {
    names_nodup := names_nodup_of_lookup hlookup
    name_isWord := by
      intro g' hg'
      rcases Array.mem_or_eq_of_mem_setIfInBounds hg' with hg' | rfl
      · exact h.name_isWord g' hg'
      · rw [Group.addLine_name]
        exact h.name_isWord g (Array.mem_of_getElem? hg)
    lookup_eq_some_iff := hlookup
    current_last := by simpa using h.current_last
    others_complete := by
      intro i g' hg' hi
      have hne : place ≠ i := fun hsame => hi (hc.trans (congrArg some hsame))
      rw [hget, if_neg hne] at hg'
      exact h.others_complete i g' hg' hi
    current_ordered := by
      intro i g' hg' hi
      rw [hget, if_pos (Option.some.inj (hc.symm.trans hi))] at hg'
      obtain rfl : g.addLine line = g' := Option.some.inj hg'
      exact g.addLine_ordered line }

/-- An accepted line leaves a registry sound. -/
theorem step (h : r.Sound) (hs : r.Step line next printed) : next.Sound := by
  cases hs with
  | blank => exact h
  | comment => exact h
  | endFile => exact h
  | opening hw hc hn => exact h.opening (isWord_of_words hw) hc hn
  | closing hw hc hg hd => exact h.closing hc hg hd
  | showing => exact h
  | content hl hc hg => exact h.content hc hg _

/-- Accepted lines leave a registry sound. -/
theorem readLines {ls printed : List String} {n : Nat} (h : r.Sound)
    (hr : r.readLines n ls = .ok (next, printed)) : next.Sound := by
  induction ls generalizing r n printed with
  | nil =>
    obtain ⟨rfl, -⟩ := readLines_nil_eq_ok_iff.mp hr
    exact h
  | cons line ls ih =>
    obtain ⟨r', text, rest, ha, hr, -⟩ := readLines_cons_eq_ok_iff.mp hr
    exact ih (h.step (accept_eq_ok_iff.mp ha)) hr

/-! ### Every reference of a sound registry leads to a group -/

/-- The open group of a sound registry is there. -/
theorem exists_current {place : Nat} (h : r.Sound) (hc : r.current = some place) :
    ∃ g, r.groups[place]? = some g := by
  have hlast := h.current_last place hc
  exact ⟨r.groups[place], by simp⟩

theorem closeGroup_ne_lost (h : r.Sound) (arguments : List String) :
    r.closeGroup arguments ≠ .error .lost := by
  unfold closeGroup
  cases hc : r.current with
  | none => simp
  | some place =>
    obtain ⟨g, hg⟩ := h.exists_current hc
    cases arguments <;> cases hd : g.isDirty <;> simp [hg, hd]

theorem addContent_ne_lost (h : r.Sound) (text : String) : r.addContent text ≠ .error .lost := by
  unfold addContent
  cases hc : r.current with
  | none => simp
  | some place =>
    obtain ⟨g, hg⟩ := h.exists_current hc
    simp [hg]

/-- No reference of a sound registry is lost when a group is shown. -/
theorem showGroup_ne_lost (h : r.Sound) (arguments : List String) :
    r.showGroup arguments ≠ .error .lost := by
  unfold showGroup
  cases hc : r.current with
  | some place => simp
  | none =>
    cases arguments with
    | nil => simp
    | cons name formats =>
      dsimp only
      cases hn : r.places.lookup name with
      | none => simp
      | some place =>
        obtain ⟨g, hg, -⟩ := (h.lookup_eq_some_iff name place).mp hn
        simp [hg, mapError_eq_error_iff]

/-- No line makes a sound registry lose a group. -/
theorem accept_ne_lost (h : r.Sound) (line : String) : r.accept line ≠ .error .lost := by
  unfold accept
  rcases Line.ofText line with _ | _ | arguments | arguments | arguments | arguments | _ | text <;>
    simp only [acceptLine, ne_eq, map_eq_error_iff, reduceCtorEq, Except.error.injEq,
      not_false_eq_true]
  · exact openGroup_ne_lost r arguments
  · exact h.closeGroup_ne_lost arguments
  · exact h.showGroup_ne_lost arguments
  · exact endFile_ne_lost r arguments
  · exact h.addContent_ne_lost text

/-- No reference of a sound registry is lost, whatever lines are read. -/
theorem readLines_ne_lost (h : r.Sound) (n : Nat) (ls : List String) :
    r.readLines n ls ≠ .error .lost := by
  induction ls generalizing r n with
  | nil => simp [Registry.readLines]
  | cons line ls ih =>
    rw [Registry.readLines]
    have hline := h.accept_ne_lost line
    cases ha : r.accept line with
    | error stop => cases stop <;> simp_all
    | ok p =>
      rw [ne_eq, map_eq_error_iff]
      exact ih (h.step (accept_eq_ok_iff.mp ha)) (n + 1)

end Sound

end Registry

end Flashcards.Markup
