namespace Flashcards.Text

/-!
# Blank characters and trimming

* `liesIn` — the sets of characters that are given by ranges of code points.
* `isBlank` — the characters with the Unicode property `White_Space`.
* `dropTrailing p l` — `l` without its longest tail whose elements all satisfy `p`.
* `trim` — a text without the blank characters at its two ends.
-/

/-- Whether the code point of a character lies in one of some closed ranges. -/
def liesIn (ranges : List (Nat × Nat)) (c : Char) : Bool :=
  ranges.any fun r => r.1 ≤ c.toNat && c.toNat ≤ r.2

/-- The code points with the Unicode property `White_Space`, as closed ranges. -/
def blankRanges : List (Nat × Nat) :=
  [(0x09, 0x0D), (0x20, 0x20), (0x85, 0x85), (0xA0, 0xA0), (0x1680, 0x1680), (0x2000, 0x200A),
    (0x2028, 0x2029), (0x202F, 0x202F), (0x205F, 0x205F), (0x3000, 0x3000)]

/-- Whether a character has the Unicode property `White_Space`. -/
def isBlank (c : Char) : Bool :=
  liesIn blankRanges c

/-- `l` without its longest tail whose elements all satisfy `p`: `List.dropWhile` from the other
    end. -/
def dropTrailing {α : Type} (p : α → Bool) (l : List α) : List α :=
  (l.reverse.dropWhile p).reverse

section

variable {α β : Type} {p : α → Bool} {a : α} {xs ys l : List α}

/-- Only elements that satisfy `p` are left out. -/
theorem exists_dropTrailing_append (p : α → Bool) (l : List α) :
    ∃ rest, (∀ a ∈ rest, p a = true) ∧ dropTrailing p l ++ rest = l := by
  refine ⟨(l.reverse.takeWhile p).reverse, ?_, ?_⟩
  · simpa using List.all_eq_true.mp (List.all_takeWhile (l := l.reverse))
  · rw [dropTrailing, ← List.reverse_append, List.takeWhile_append_dropWhile, List.reverse_reverse]

/-- A first element stays with what stays behind it; alone it stays unless it satisfies `p`. -/
theorem dropTrailing_cons (p : α → Bool) (a : α) (l : List α) :
    dropTrailing p (a :: l) =
      if (dropTrailing p l).isEmpty && p a then [] else a :: dropTrailing p l := by
  rw [dropTrailing, dropTrailing, List.reverse_cons, List.dropWhile_append, List.isEmpty_reverse]
  cases (l.reverse.dropWhile p) <;> cases hp : p a <;> simp [hp]

/-- An element that does not satisfy `p` stays, with all that stands before it. -/
theorem dropTrailing_append_cons (ha : p a = false) (xs ys : List α) :
    dropTrailing p (xs ++ a :: ys) = xs ++ a :: dropTrailing p ys := by
  induction xs with
  | nil => simp [dropTrailing_cons, ha]
  | cons x xs ih => simp [dropTrailing_cons, ih]

/-- Elements at the end that satisfy `p` do not matter. -/
theorem dropTrailing_append_of_all (h : ∀ a ∈ ys, p a = true) (xs : List α) :
    dropTrailing p (xs ++ ys) = dropTrailing p xs := by
  rw [dropTrailing, List.reverse_append, List.dropWhile_append_of_pos (by simpa using h),
    dropTrailing]

/-- Any number of equal elements at the end that satisfy `p` do not matter. -/
theorem dropTrailing_append_replicate (ha : p a = true) (xs : List α) (n : Nat) :
    dropTrailing p (xs ++ List.replicate n a) = dropTrailing p xs := by
  refine dropTrailing_append_of_all (fun b hb => ?_) xs
  rw [List.eq_of_mem_replicate hb]
  exact ha

/-- Whether two lists come to the same is told by what stands behind a first element of both. -/
theorem dropTrailing_cons_inj (a : α) :
    dropTrailing p (a :: xs) = dropTrailing p (a :: ys) ↔
      dropTrailing p xs = dropTrailing p ys := by
  rw [dropTrailing_cons, dropTrailing_cons]
  cases dropTrailing p xs <;> cases dropTrailing p ys <;> cases p a <;> simp

/-- What stands at the end of a whole does not matter to its parts. -/
theorem dropTrailing_take (p : α → Bool) (l : List α) (n : Nat) :
    dropTrailing p ((dropTrailing p l).take n) = dropTrailing p (l.take n) := by
  obtain ⟨rest, hall, hl⟩ := exists_dropTrailing_append p l
  have htake : l.take n =
      (dropTrailing p l).take n ++ rest.take (n - (dropTrailing p l).length) := by
    rw [← List.take_append, hl]
  rw [htake, dropTrailing_append_of_all fun a ha => hall a (List.mem_of_mem_take ha)]

/-- What stays of images are the images of what stays. -/
theorem dropTrailing_map (p : β → Bool) (f : α → β) (l : List α) :
    dropTrailing p (l.map f) = (dropTrailing (fun a => p (f a)) l).map f := by
  rw [dropTrailing, dropTrailing, ← List.map_reverse, List.dropWhile_map, List.map_reverse]
  rfl

end

/-- A text without the blank characters at its end. -/
def trimEnd (cs : List Char) : List Char :=
  dropTrailing isBlank cs

/-- A text without the blank characters at its start. -/
def trimStart (cs : List Char) : List Char :=
  cs.dropWhile isBlank

/-- A text without the blank characters at its two ends. -/
def trim (cs : List Char) : List Char :=
  trimEnd (trimStart cs)

end Flashcards.Text
