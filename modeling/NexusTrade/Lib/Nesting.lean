import Mathlib.Data.List.Basic

/-!
# Nested texts

What every reader of JSON objects checks of a text: its brackets and strings are closed, nothing follows the last
bracket, and a string is followed by a separator or a bracket.  Texts that are not JSON may pass as well.

* **`next`** reads a character, and **`Complete`** says that a text is one value;
* **`Unfinished`** texts are not complete, and **`Unfinished.append`** says that they stay so whatever objects, whole or
  cut, are written behind them.
-/

namespace Nesting

/-- Where a text is within a bracket. -/
inductive Place
  | plain
  | text
  | escape
  | closed
  deriving DecidableEq

/-- What is read so far: nothing, some open brackets besides the outermost, or a whole value. -/
inductive Reading
  | outside
  | within (depth : ℕ) (place : Place)
  | complete
  deriving DecidableEq

def isSpace (c : Char) : Bool := c = ' ' || c = '\t' || c = '\n' || c = '\r'

def isOpening (c : Char) : Bool := c = '\x7b' || c = '['

def isClosing (c : Char) : Bool := c = '\x7d' || c = ']'

/-- A bracket is closed. -/
def close : ℕ → Reading
  | 0 => .complete
  | depth + 1 => .within depth .plain

/-- Read a character. -/
def next : Reading → Char → Option Reading
  | .outside, c => if isSpace c then some .outside else if isOpening c then some (.within 0 .plain) else none
  | .within depth .plain, c =>
    if c = '"' then some (.within depth .text)
    else if isOpening c then some (.within (depth + 1) .plain)
    else if isClosing c then some (close depth)
    else some (.within depth .plain)
  | .within depth .text, c =>
    if c = '"' then some (.within depth .closed)
    else if c = '\\' then some (.within depth .escape)
    else some (.within depth .text)
  | .within depth .escape, _ => some (.within depth .text)
  | .within depth .closed, c =>
    if isClosing c then some (close depth)
    else if c = ',' || c = ':' || isSpace c then some (.within depth .plain)
    else none
  | .complete, c => if isSpace c then some .complete else none

/-- Read a text. -/
def read (reading : Reading) (text : List Char) : Option Reading := text.foldlM next reading

/-- The text is one value. -/
def Complete (text : List Char) : Prop := read .outside text = some .complete

/-- An object whose first member has a name: what `next` must see of it. -/
structure Object (text : List Char) : Prop where
  complete : Complete text
  shape : ∃ letter body, text = '\x7b' :: '"' :: letter :: body ++ ['\x7d'] ∧
    isClosing letter = false ∧ letter ≠ ',' ∧ letter ≠ ':' ∧ isSpace letter = false

theorem read_append (reading : Reading) (text text' : List Char) :
    read reading (text ++ text') = (read reading text).bind fun reading => read reading text' := by
  rw [read, List.foldlM_append]
  rfl

theorem read_cons (reading : Reading) (c : Char) (text : List Char) :
    read reading (c :: text) = (next reading c).bind fun reading => read reading text := rfl

theorem read_singleton (reading : Reading) (c : Char) : read reading [c] = next reading c := by
  rw [read_cons]
  cases next reading c <;> rfl

/-- What is complete can only be followed by space. -/
theorem read_complete {text : List Char} {reading : Reading} (h : read .complete text = some reading) :
    reading = .complete := by
  induction text with
  | nil => exact (Option.some.inj h).symm
  | cons c text ih =>
      rw [read_cons, next] at h
      split at h
      · exact ih h
      · cases h

/-- A bracket is open, whatever it is and how many. -/
def Open (reading : Reading) : Prop := ∃ depth place, reading = .within depth place

theorem next_ne_outside {depth : ℕ} {place : Place} {c : Char} {reading : Reading}
    (h : next (.within depth place) c = some reading) : Open reading ∨ reading = .complete := by
  have hclose : close depth = .complete ∨ Open (close depth) := by
    cases depth with
    | zero => exact Or.inl rfl
    | succ depth => exact Or.inr ⟨depth, .plain, rfl⟩
  have hopen : ∀ depth place, Open (.within depth place) := fun depth place => ⟨depth, place, rfl⟩
  cases place with
  | plain =>
      simp only [next] at h
      split_ifs at h <;> cases h
      · exact Or.inl (hopen _ _)
      · exact Or.inl (hopen _ _)
      · exact hclose.symm
      · exact Or.inl (hopen _ _)
  | text =>
      simp only [next] at h
      split_ifs at h <;> cases h <;> exact Or.inl (hopen _ _)
  | escape =>
      cases h
      exact Or.inl (hopen _ _)
  | closed =>
      simp only [next] at h
      split_ifs at h <;> cases h
      · exact hclose.symm
      · exact Or.inl (hopen _ _)

/-- After an open bracket nothing is outside. -/
theorem read_open {text : List Char} : ∀ {reading reading' : Reading}, Open reading →
    read reading text = some reading' → Open reading' ∨ reading' = .complete := by
  induction text with
  | nil =>
      intro reading reading' hopen h
      rw [← Option.some.inj h]
      exact Or.inl hopen
  | cons c text ih =>
      intro reading reading' hopen h
      obtain ⟨depth, place, rfl⟩ := hopen
      rw [read_cons] at h
      obtain ⟨middle, hnext, hrest⟩ := Option.bind_eq_some_iff.mp h
      rcases next_ne_outside hnext with hopen | rfl
      · exact ih hopen hrest
      · exact Or.inr (read_complete hrest)

/-! ### Brackets within brackets -/

/-- A character is read alike within more brackets. -/
theorem next_shift (more : ℕ) {depth depth' : ℕ} {place place' : Place} {c : Char}
    (h : next (.within depth place) c = some (.within depth' place')) :
    next (.within (more + depth) place) c = some (.within (more + depth') place') := by
  have hclose : close depth = .within depth' place' → close (more + depth) = .within (more + depth') place' := by
    intro hclose
    cases depth with
    | zero => cases hclose
    | succ depth =>
        cases hclose
        rfl
  cases place with
  | plain =>
      simp only [next] at h ⊢
      split_ifs at h ⊢ <;> first | exact congrArg some (hclose (Option.some.inj h)) | (cases h; rfl)
  | text =>
      simp only [next] at h ⊢
      split_ifs at h ⊢ <;> (cases h; rfl)
  | escape =>
      cases h
      rfl
  | closed =>
      simp only [next] at h ⊢
      split_ifs at h ⊢ <;> first | exact congrArg some (hclose (Option.some.inj h)) | (cases h; rfl)

theorem read_shift (more : ℕ) (text : List Char) : ∀ {depth depth' : ℕ} {place place' : Place},
    read (.within depth place) text = some (.within depth' place') →
    read (.within (more + depth) place) text = some (.within (more + depth') place') := by
  induction text with
  | nil =>
      intro depth depth' place place' h
      cases h
      rfl
  | cons c text ih =>
      intro depth depth' place place' h
      rw [read_cons] at h ⊢
      obtain ⟨middle, hnext, hrest⟩ := Option.bind_eq_some_iff.mp h
      rcases next_ne_outside hnext with ⟨d, p, rfl⟩ | rfl
      · rw [next_shift more hnext]
        exact ih hrest
      · cases read_complete hrest

/-- The bracket that completes a value closes one more within more brackets. -/
theorem next_complete (more : ℕ) {depth : ℕ} {place : Place} {c : Char}
    (h : next (.within depth place) c = some .complete) :
    next (.within (more + 1 + depth) place) c = some (.within more .plain) := by
  have hclose : close depth = .complete → close (more + 1 + depth) = .within more .plain := by
    intro hclose
    cases depth with
    | zero => rfl
    | succ depth => cases hclose
  cases place with
  | plain =>
      simp only [next] at h ⊢
      split_ifs at h ⊢ <;> first | exact congrArg some (hclose (Option.some.inj h)) | cases h
  | text =>
      simp only [next] at h
      split_ifs at h <;> cases h
  | escape => cases h
  | closed =>
      simp only [next] at h ⊢
      split_ifs at h ⊢ <;> first | exact congrArg some (hclose (Option.some.inj h)) | cases h

/-! ### Texts that are cut -/

/-- The text is not complete, and a bracket of it is open if it can be read at all. -/
def Unfinished (text : List Char) : Prop := ∀ reading, read .outside text = some reading → Open reading

theorem Unfinished.not_complete {text : List Char} (h : Unfinished text) : ¬Complete text := by
  intro hcomplete
  obtain ⟨depth, place, hreading⟩ := h _ hcomplete
  cases hreading

/-- **The last bracket of an object**: what is before it is read, and leaves one bracket open. -/
theorem Object.last {object : List Char} (h : Object object) :
    ∃ start depth place, object = start ++ ['\x7d'] ∧ read .outside start = some (.within depth place) ∧
      next (.within depth place) '\x7d' = some .complete := by
  obtain ⟨letter, body, rfl, -⟩ := h.shape
  have hcomplete := h.complete
  rw [Complete, read_append] at hcomplete
  obtain ⟨reading, hstart, hlast⟩ := Option.bind_eq_some_iff.mp hcomplete
  rw [read_singleton] at hlast
  have hopen : Open (.within 0 .plain) := ⟨0, .plain, rfl⟩
  rcases read_open hopen hstart with ⟨depth, place, rfl⟩ | rfl
  · exact ⟨_, depth, place, rfl, hstart, hlast⟩
  · cases hlast

/-- **What is read of an object that is cut.** -/
theorem Object.read_prefix {object part : List Char} (h : Object object) (hpart : part <+: object)
    (hcut : part ≠ object) (hnonempty : part ≠ []) : ∃ reading, read .outside part = some reading ∧ Open reading := by
  obtain ⟨start, depth, place, hobject, hstart, -⟩ := h.last
  have hbefore : part <+: start := by
    rw [hobject, List.prefix_concat_iff] at hpart
    exact hpart.resolve_left (hobject ▸ hcut)
  obtain ⟨rest, rfl⟩ := hbefore
  rw [read_append] at hstart
  obtain ⟨reading, hread, hrest⟩ := Option.bind_eq_some_iff.mp hstart
  refine ⟨reading, hread, ?_⟩
  obtain ⟨letter, body, hshape, -⟩ := h.shape
  cases part with
  | nil => exact absurd rfl hnonempty
  | cons first part =>
      rw [hshape] at hobject
      obtain ⟨rfl, -⟩ := List.cons.inj hobject
      have hbracket : Open (.within 0 .plain) := ⟨0, .plain, rfl⟩
      rcases read_open hbracket hread with hopen | rfl
      · exact hopen
      · cases read_complete hrest

/-- What a part of an object starts with. -/
theorem Object.part_cases {object part : List Char} (h : Object object) (hpart : part <+: object) :
    part = [] ∨ part = ['\x7b'] ∨ part = ['\x7b', '"'] ∨ ∃ letter more, part = '\x7b' :: '"' :: letter :: more ∧
      next (.within 0 .closed) letter = none := by
  obtain ⟨letter, body, rfl, hclosing, hcomma, hcolon, hspace⟩ := h.shape
  cases part with
  | nil => exact Or.inl rfl
  | cons first part =>
      obtain ⟨rfl, hsecond⟩ := List.cons_prefix_cons.mp hpart
      cases part with
      | nil => exact Or.inr (Or.inl rfl)
      | cons second part =>
          obtain ⟨rfl, hthird⟩ := List.cons_prefix_cons.mp hsecond
          cases part with
          | nil => exact Or.inr (Or.inr (Or.inl rfl))
          | cons third part =>
              obtain ⟨rfl, -⟩ := List.cons_prefix_cons.mp hthird
              exact Or.inr (Or.inr (Or.inr ⟨third, part, rfl, by simp [next, hclosing, hcomma, hcolon, hspace]⟩))

/-- A part of an object within a string or behind one: the string ends at its second character. -/
theorem Object.read_within {object part : List Char} (h : Object object) (hpart : part <+: object) {depth : ℕ}
    {place : Place} (hplace : place ≠ .plain) {reading : Reading}
    (hread : read (.within depth place) part = some reading) : Open reading := by
  have hletter : ∀ letter, next (.within 0 .closed) letter = none → next (.within depth .closed) letter = none := by
    intro letter hnone
    simp only [next] at hnone ⊢
    split_ifs at hnone ⊢
    rfl
  have hopen : Open (.within depth place) := ⟨depth, place, rfl⟩
  rcases h.part_cases hpart with rfl | rfl | rfl | ⟨letter, more, rfl, hnone⟩
  · exact Option.some.inj hread ▸ hopen
  · cases place with
    | plain => exact absurd rfl hplace
    | text => exact ⟨depth, .text, (Option.some.inj hread).symm⟩
    | escape => exact ⟨depth, .text, (Option.some.inj hread).symm⟩
    | closed => cases hread
  · cases place with
    | plain => exact absurd rfl hplace
    | text => exact ⟨depth, .closed, (Option.some.inj hread).symm⟩
    | escape => exact ⟨depth, .closed, (Option.some.inj hread).symm⟩
    | closed => cases hread
  · have hstuck : read (.within depth .closed) (letter :: more) = none := by
      rw [read_cons, hletter letter hnone]
      rfl
    cases place with
    | plain => exact absurd rfl hplace
    | text => cases hstuck.symm.trans hread
    | escape => cases hstuck.symm.trans hread
    | closed => cases hread

/-- A part of an object where a value may stand. -/
theorem Object.read_plain {object part : List Char} (h : Object object) (hpart : part <+: object) (depth : ℕ)
    {reading : Reading} (hread : read (.within depth .plain) part = some reading) : Open reading := by
  rcases eq_or_ne part [] with rfl | hnonempty
  · exact ⟨depth, .plain, (Option.some.inj hread).symm⟩
  · obtain ⟨letter, body, hshape, -⟩ := h.shape
    have hfirst : ∃ rest, part = '\x7b' :: rest := by
      cases part with
      | nil => exact absurd rfl hnonempty
      | cons first rest =>
          rw [hshape] at hpart
          obtain ⟨rfl, -⟩ := List.cons_prefix_cons.mp hpart
          exact ⟨rest, rfl⟩
    by_cases hcut : part = object
    · obtain ⟨start, depth', place, hobject, hstart, hlast⟩ := h.last
      have hbegin : ∃ rest, start = '\x7b' :: rest := by
        cases start with
        | nil =>
            rw [hshape] at hobject
            cases hobject
        | cons first rest =>
            rw [hshape] at hobject
            obtain ⟨rfl, -⟩ := List.cons.inj hobject
            exact ⟨rest, rfl⟩
      obtain ⟨rest, rfl⟩ := hbegin
      have hinner : read (.within 0 .plain) rest = some (.within depth' place) := hstart
      have houter := read_shift (depth + 1) rest hinner
      rw [hcut, hobject, List.cons_append, read_cons] at hread
      have hopens : next (.within depth .plain) '\x7b' = some (.within (depth + 1) .plain) := rfl
      rw [hopens, Option.bind_some, read_append] at hread
      rw [Nat.add_zero] at houter
      rw [houter, Option.bind_some, read_singleton, next_complete depth hlast] at hread
      exact ⟨depth, .plain, (Option.some.inj hread).symm⟩
    · obtain ⟨rest, rfl⟩ := hfirst
      obtain ⟨_, hcutRead, depth', place, rfl⟩ := h.read_prefix hpart hcut hnonempty
      have hinner : read (.within 0 .plain) rest = some (.within depth' place) := hcutRead
      have houter := read_shift (depth + 1) rest hinner
      have hopens : next (.within depth .plain) '\x7b' = some (.within (depth + 1) .plain) := rfl
      rw [Nat.add_zero] at houter
      rw [read_cons, hopens, Option.bind_some, houter] at hread
      exact ⟨_, _, (Option.some.inj hread).symm⟩

/-- **An unfinished text stays so** if a part of an object follows. -/
theorem Unfinished.append {text object part : List Char} (h : Unfinished text) (hobject : Object object)
    (hpart : part <+: object) : Unfinished (text ++ part) := by
  intro reading hread
  rw [read_append] at hread
  obtain ⟨middle, htext, hrest⟩ := Option.bind_eq_some_iff.mp hread
  obtain ⟨depth, place, rfl⟩ := h middle htext
  by_cases hplace : place = .plain
  · subst hplace
    exact hobject.read_plain hpart depth hrest
  · exact hobject.read_within hpart hplace hrest

/-- **An object that is cut** is unfinished. -/
theorem Object.unfinished {object part : List Char} (h : Object object) (hpart : part <+: object)
    (hcut : part ≠ object) (hnonempty : part ≠ []) : Unfinished part := by
  intro reading hread
  obtain ⟨reading', hread', hopen⟩ := h.read_prefix hpart hcut hnonempty
  rw [hread] at hread'
  exact Option.some.inj hread' ▸ hopen

/-- **Two objects are no object**, and no more is one and a part of another. -/
theorem Object.append {object object' part : List Char} (h : Object object) (hobject : Object object')
    (hpart : part <+: object') (hnonempty : part ≠ []) : Unfinished (object ++ part) := by
  intro reading hread
  rw [read_append, h.complete, Option.bind_some] at hread
  obtain ⟨letter, body, rfl, -⟩ := hobject.shape
  cases part with
  | nil => exact absurd rfl hnonempty
  | cons first part =>
      obtain ⟨rfl, -⟩ := List.cons_prefix_cons.mp hpart
      cases hread

end Nesting
