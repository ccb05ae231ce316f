import Flashcards.Markup.Soundness
import Mathlib.Data.List.Basic

namespace Flashcards

open Flashcards.Markup

/-!
# What a group holds and shows

* `triples`, `leftover` — lines taken three at a time, and the one or two lines that remain.
* `Group.foldl_addLine` — a group takes its lines in this way: `triples` become its terms and
  `leftover` waits.
* `Group.cards?` — the flashcards of a group, one after the other, without reference to faults.
* `Group.display_toOption` — `Group.display` joins these flashcards.
-/

/-! ### Lines taken three at a time -/

/-- The terms of some lines, three lines a term. -/
def triples : List String → List Term
  | [] => []
  | [_] => []
  | [_, _] => []
  | h :: r :: d :: rest => Term.ofLines h r d :: triples rest

/-- The lines that remain when lines are taken three at a time. -/
def leftover : List String → List String
  | [] => []
  | [h] => [h]
  | [h, r] => [h, r]
  | _ :: _ :: _ :: rest => leftover rest

/-- Three lines make one term. -/
theorem length_triples (ls : List String) : (triples ls).length = ls.length / 3 := by
  fun_induction triples ls with
  | case1 => rfl
  | case2 => simp
  | case3 => simp
  | case4 h r d rest ih =>
    simp only [List.length_cons, ih]
    omega

/-- Less than three lines are left over. -/
theorem length_leftover (ls : List String) : (leftover ls).length = ls.length % 3 := by
  fun_induction leftover ls with
  | case1 => rfl
  | case2 => rfl
  | case3 => rfl
  | case4 h r d rest ih =>
    simp only [List.length_cons, ih]
    omega

namespace Group

/-- The group of a name after some lines of content. -/
def ofLines (name : String) (ls : List String) : Group :=
  ls.foldl addLine (empty name)

/-- A line behind others is added to their group. -/
theorem ofLines_append (name : String) (ls : List String) (line : String) :
    ofLines name (ls ++ [line]) = (ofLines name ls).addLine line := by
  rw [ofLines, List.foldl_append]
  rfl

/-- A group without an unfinished term takes its next lines three at a time. -/
theorem foldl_addLine (name : String) (ts : List Term) (ls : List String) :
    ls.foldl addLine ⟨name, ts, none, none⟩ =
      ⟨name, (triples ls).reverse ++ ts, (leftover ls)[0]?, (leftover ls)[1]?⟩ := by
  fun_induction triples ls generalizing ts with
  | case1 => rfl
  | case2 => rfl
  | case3 => rfl
  | case4 h r d rest ih =>
    simp only [List.foldl_cons, addLine, leftover, List.reverse_cons, List.append_assoc,
      List.singleton_append]
    exact ih _

/-- The group of some lines: the lines taken three at a time are its terms, the others wait. -/
theorem ofLines_eq (name : String) (ls : List String) :
    ofLines name ls =
      ⟨name, (triples ls).reverse, (leftover ls)[0]?, (leftover ls)[1]?⟩ := by
  have h := foldl_addLine name [] ls
  rwa [List.append_nil] at h

@[simp] theorem ofLines_name (name : String) (ls : List String) :
    (ofLines name ls).name = name := by
  rw [ofLines_eq]

@[simp] theorem ofLines_terms (name : String) (ls : List String) :
    (ofLines name ls).terms = triples ls := by
  rw [ofLines_eq, terms, List.reverse_reverse]

/-- A group is complete when the number of its lines is divisible by three. -/
theorem ofLines_isDirty_eq_false_iff (name : String) (ls : List String) :
    (ofLines name ls).isDirty = false ↔ 3 ∣ ls.length := by
  have hlength := length_leftover ls
  rw [ofLines_eq, isDirty, Nat.dvd_iff_mod_eq_zero, ← hlength]
  simp

/-- A complete group has no terms when it has no lines. -/
theorem triples_eq_nil_iff {ls : List String} (h : 3 ∣ ls.length) : triples ls = [] ↔ ls = [] := by
  have hlength := length_triples ls
  rw [← List.length_eq_zero_iff, ← List.length_eq_zero_iff, hlength]
  omega

end Group

/-! ### Flashcards -/

/-- Steps that may fail are made for all elements, with the causes left out. -/
theorem mapM_toOption {ε α β : Type} (f : α → Except ε β) (l : List α) :
    (l.mapM f).toOption = l.mapM fun a => (f a).toOption := by
  induction l with
  | nil => rfl
  | cons a l ih =>
    rw [List.mapM_cons, List.mapM_cons, ← ih]
    -- The first fault ends both sides; which fault it is gets lost on both.
    cases f a with
    | error e => rfl
    | ok b => cases l.mapM f <;> rfl

/-- A cause may be left out before or after a value is made of another one. -/
theorem map_toOption {ε α β : Type} (f : α → β) (x : Except ε α) :
    (x.map f).toOption = x.toOption.map f := by
  cases x <;> rfl

/-- The first fault among some results is that of an element with no fault before it. -/
theorem mapM_eq_error_iff {ε α β : Type} {f : α → Except ε β} {l : List α} {e : ε} :
    l.mapM f = .error e ↔
      ∃ before a after, before ++ a :: after = l ∧ (∀ b ∈ before, ∃ v, f b = .ok v) ∧
        f a = .error e := by
  induction l with
  | nil => simp [pure, Except.pure]
  | cons a l ih =>
    have hcons : (a :: l).mapM f = .error e ↔
        f a = .error e ∨ (∃ v, f a = .ok v) ∧ l.mapM f = .error e := by
      rw [List.mapM_cons]
      cases f a <;> cases l.mapM f <;> simp [bind, Except.bind, pure, Except.pure]
    rw [hcons, ih]
    constructor
    · rintro (hf | ⟨hv, before, b, after, rfl, hbefore, hf⟩)
      · exact ⟨[], a, l, rfl, by simp, hf⟩
      · exact ⟨a :: before, b, after, rfl, by simpa using ⟨hv, hbefore⟩, hf⟩
    · rintro ⟨before, b, after, hcut, hbefore, hf⟩
      cases before with
      | nil =>
        obtain ⟨rfl, rfl⟩ := List.cons.inj hcut
        exact .inl hf
      | cons first before =>
        obtain ⟨rfl, rfl⟩ := List.cons.inj hcut
        obtain ⟨hv, hbefore⟩ := List.forall_mem_cons.mp hbefore
        exact .inr ⟨hv, before, b, after, rfl, hbefore, hf⟩

/-- All results are there when each of them is. -/
theorem mapM_isSome_iff {α β : Type} (f : α → Option β) (l : List α) :
    (l.mapM f).isSome ↔ ∀ a ∈ l, (f a).isSome := by
  induction l with
  | nil => simp
  | cons a l ih =>
    rw [List.mapM_cons]
    cases hf : f a <;> cases hl : l.mapM f <;> simp_all

/-- Steps for all elements succeed just if each of them does. -/
theorem mapM_eq_some_iff {α β : Type} {f : α → Option β} {l : List α} {bs : List β} :
    l.mapM f = some bs ↔ l.map f = bs.map some := by
  induction l generalizing bs with
  | nil =>
    cases bs with
    | nil => exact ⟨fun _ => rfl, fun _ => rfl⟩
    | cons b bs => exact ⟨fun h => by simp [List.mapM_nil] at h, fun h => by simp at h⟩
  | cons a l ih =>
    rw [List.mapM_cons, List.map_cons]
    constructor
    · intro h
      obtain ⟨b, hb, hrest⟩ := Option.bind_eq_some_iff.mp h
      obtain ⟨others, hothers, hbs⟩ := Option.bind_eq_some_iff.mp hrest
      obtain rfl : b :: others = bs := Option.some.inj hbs
      rw [hb, ih.mp hothers, List.map_cons]
    · intro h
      cases bs with
      | nil => simp at h
      | cons b others =>
        obtain ⟨hb, hothers⟩ := List.cons.inj h
        rw [hb, ih.mpr hothers]
        rfl

/-- Values may be made of others one by one or all at last. -/
theorem mapM_option_map {α β γ : Type} (f : α → Option β) (g : β → γ) (l : List α) :
    (l.mapM fun a => (f a).map g) = (l.mapM f).map (List.map g) := by
  induction l with
  | nil => rfl
  | cons a l ih =>
    rw [List.mapM_cons, List.mapM_cons, ih]
    cases f a <;> cases l.mapM f <;> rfl

theorem join_map_join (bs : List (List String)) :
    String.join (bs.map String.join) = String.join bs.flatten := by
  induction bs with
  | nil => rfl
  | cons b bs ih => simp [ih]

/-- The names of formats. -/
theorem Format.ofName?_isSome_iff (name : String) :
    (Format.ofName? name).isSome ↔ name = "reading" ∨ name = "writing" := by
  rw [Format.ofName?, List.find?_isSome, eq_comm, @eq_comm _ name "writing"]
  simp only [decide_eq_true_eq]
  simp only [Format.all, List.mem_cons, List.not_mem_nil, or_false, exists_eq_or_imp,
    exists_eq_left, Format.name]

namespace Group

/-- The flashcards of a group in the formats of some names, formats outermost; none if a term is
    to be shown in no format. -/
def cards? (g : Group) (names : List String) : Option (List String) :=
  (names.mapM fun name => g.terms.mapM fun t =>
    (Format.ofName? name).map t.render).map List.flatten

/-- A term is rendered in a format that has the name. -/
theorem renderNamed_toOption (t : Term) (name : String) :
    (t.renderNamed name).toOption = (Format.ofName? name).map t.render := by
  rw [Term.renderNamed, map_toOption, Format.named]
  cases Format.ofName? name <;> rfl

/-- A group is displayed as its flashcards, joined, if there is at least one format. -/
theorem display_toOption (g : Group) (names : List String) :
    (g.display names).toOption =
      if names = [] then none else (g.cards? names).map String.join := by
  by_cases hnames : names = []
  · subst hnames
    rfl
  · have hrender : ∀ name, (renderTerms name g.terms).toOption =
        (g.terms.mapM fun t => (Format.ofName? name).map t.render).map String.join := by
      intro name
      simp only [renderTerms, map_toOption, mapM_toOption, renderNamed_toOption]
    rw [display, if_neg (by simpa using hnames), if_neg hnames, renderFormats, map_toOption,
      mapM_toOption]
    simp only [hrender, mapM_option_map, cards?, Option.map_map, Function.comp_def, join_map_join]

/-- A group is displayed if formats are given and all its cards can be made. -/
theorem display_eq_ok_iff {g : Group} {names : List String} {printed : String} :
    g.display names = .ok printed ↔
      names ≠ [] ∧ ∃ cards, g.cards? names = some cards ∧ String.join cards = printed := by
  have htoOption : g.display names = .ok printed ↔ (g.display names).toOption = some printed := by
    cases g.display names <;> simp [Except.toOption]
  rw [htoOption, display_toOption]
  by_cases hnames : names = [] <;> simp [hnames]

/-- Terms are not shown when there are any and the name is no format's. -/
theorem renderTerms_eq_error_iff {name : String} {ts : List Term} {f : Fault} :
    renderTerms name ts = .error f ↔
      ts ≠ [] ∧ ¬ (name = "reading" ∨ name = "writing") ∧ .unknownFormat name = f := by
  rw [← Format.ofName?_isSome_iff, renderTerms, map_eq_error_iff, mapM_eq_error_iff]
  simp only [Term.renderNamed, map_eq_error_iff, Format.named]
  constructor
  · rintro ⟨before, t, after, rfl, -, hf⟩
    cases hname : Format.ofName? name <;> simp_all
  · rintro ⟨hts, hname, rfl⟩
    obtain ⟨t, ts, rfl⟩ := List.exists_cons_of_ne_nil hts
    have hnone : Format.ofName? name = none := by simpa using hname
    exact ⟨[], t, ts, rfl, by simp, by rw [hnone]⟩

/-- A group is not displayed in no format, nor in a list of formats whose first wrong name is met
    at a term. -/
theorem display_eq_error_iff {g : Group} {names : List String} {f : Fault} :
    g.display names = .error f ↔
      names = [] ∧ .noFormats = f ∨
        g.terms ≠ [] ∧ ∃ good name rest, good ++ name :: rest = names ∧
          (∀ n ∈ good, n = "reading" ∨ n = "writing") ∧ ¬ (name = "reading" ∨ name = "writing") ∧
            .unknownFormat name = f := by
  cases names with
  | nil => simp [display]
  | cons first others =>
    rw [display, if_neg (by simp), renderFormats, map_eq_error_iff, mapM_eq_error_iff]
    simp only [renderTerms_eq_error_iff, reduceCtorEq, false_and, false_or]
    constructor
    · rintro ⟨good, name, rest, hcut, hgood, hterms, hname, hf⟩
      refine ⟨hterms, good, name, rest, hcut, fun n hn => ?_, hname, hf⟩
      -- A name that was passed is a format's, for it was met at a term.
      obtain ⟨shown, hshown⟩ := hgood n hn
      by_contra hbad
      have hrefused : renderTerms n g.terms = .error (.unknownFormat n) :=
        renderTerms_eq_error_iff.mpr ⟨hterms, hbad, rfl⟩
      rw [hrefused] at hshown
      exact absurd hshown (by simp)
    · rintro ⟨hterms, good, name, rest, hcut, hgood, hname, hf⟩
      refine ⟨good, name, rest, hcut, fun n hn => ?_, hterms, hname, hf⟩
      cases hshown : renderTerms n g.terms with
      | ok shown => exact ⟨shown, rfl⟩
      | error e => exact absurd (hgood n hn) (renderTerms_eq_error_iff.mp hshown).2.1

/-- A group without terms can be shown in any format, others only in those that there are. -/
theorem cards?_isSome_iff (g : Group) (names : List String) :
    (g.cards? names).isSome ↔
      (g.terms ≠ [] → ∀ name ∈ names, name = "reading" ∨ name = "writing") := by
  simp only [cards?, Option.isSome_map, mapM_isSome_iff, Format.ofName?_isSome_iff]
  constructor
  · intro h hterms name hname
    -- Any one term shows that the name is that of a format.
    obtain ⟨t, ts, ht⟩ := List.exists_cons_of_ne_nil hterms
    exact h name hname t (by simp [ht])
  · intro h name hname t ht
    exact h (List.ne_nil_of_mem ht) name hname

end Group

end Flashcards
