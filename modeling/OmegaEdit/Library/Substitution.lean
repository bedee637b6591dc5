import OmegaEdit.Library.Splice

/-! Substitution of a word for stretches of one length in a list, given by where they begin, and
the file positions of a program that writes the result from the end backwards. -/
namespace Substitution
universe u
variable {α : Type u}

/-- What follows `cursor` with each stretch of `length` elements at the places replaced. -/
def substitute (text : List α) (length : Nat) (word : List α) : Nat → List Nat → List α
  | cursor, [] => text.drop cursor
  | cursor, place :: rest =>
    Splice.slice text cursor (place - cursor) ++ word ++
      substitute text length word (place + length) rest

/-- The places follow one another with room for a stretch each, from `cursor` to the end. -/
def Spaced (length size : Nat) : Nat → List Nat → Prop
  | cursor, [] => cursor ≤ size
  | cursor, place :: rest => cursor ≤ place ∧ Spaced length size (place + length) rest

variable {text word : List α} {length size cursor later : Nat} {places : List Nat}

lemma Spaced.cursor_le (spaced : Spaced length size cursor places) : cursor ≤ size := by
  induction places generalizing cursor with
  | nil => exact spaced
  | cons place rest ih =>
    have after := ih spaced.2
    have before := spaced.1
    omega

lemma Spaced.mono {earlier : Nat} (spaced : Spaced length size cursor places)
    (le : earlier ≤ cursor) : Spaced length size earlier places := by
  cases places with
  | nil => exact le_trans le spaced
  | cons place rest => exact ⟨le_trans le spaced.1, spaced.2⟩

lemma Spaced.widen {more : Nat} (spaced : Spaced length size cursor places) (le : size ≤ more) :
    Spaced length more cursor places := by
  induction places generalizing cursor with
  | nil => exact le_trans spaced le
  | cons place rest ih => exact ⟨spaced.1, ih spaced.2⟩

lemma substitute_split (spaced : Spaced length text.length later places) (le : cursor ≤ later) :
    substitute text length word cursor places =
      Splice.slice text cursor (later - cursor) ++ substitute text length word later places := by
  cases places with
  | nil =>
    have parts := List.take_append_drop (later - cursor) (text.drop cursor)
    rw [List.drop_drop, Nat.add_sub_cancel' le] at parts
    exact parts.symm
  | cons place rest =>
    have before := spaced.1
    have left : place - cursor - (later - cursor) = place - later := by omega
    rw [substitute, substitute, Splice.slice_split text cursor (place - cursor) (later - cursor)
      (by omega), Nat.add_sub_cancel' le, left]
    simp only [List.append_assoc]

lemma length_substitute (spaced : Spaced length text.length cursor places) :
    ((substitute text length word cursor places).length : Int) =
      text.length - cursor + places.length * ((word.length : Int) - length) := by
  induction places generalizing cursor with
  | nil =>
    have le : cursor ≤ text.length := spaced
    rw [substitute, List.length_drop, List.length_nil]
    omega
  | cons place rest ih =>
    have rest := ih spaced.2
    have le := spaced.2.cursor_le
    have before := spaced.1
    have kept := Splice.length_slice_of_le
      (by omega : cursor + (place - cursor) ≤ text.length)
    rw [substitute, List.length_append, List.length_append, kept, List.length_cons,
      Int.natCast_add, rest, Int.natCast_succ, Int.add_mul, Int.one_mul]
    generalize _ * ((word.length : Int) - length) = product
    omega

/-- The places follow one another downwards with room for a stretch each, from `top` to zero. -/
def Falls (length : Nat) : Nat → List Nat → Prop
  | _, [] => True
  | top, place :: rest => place + length ≤ top ∧ Falls length place rest

lemma Falls.mono {top higher : Nat} (falls : Falls length top places) (le : top ≤ higher) :
    Falls length higher places := by
  cases places with
  | nil => trivial
  | cons place rest => exact ⟨le_trans falls.1 le, falls.2⟩

lemma Falls.length_mul_le {top : Nat} (falls : Falls length top places) :
    places.length * length ≤ top := by
  induction places generalizing top with
  | nil => rw [List.length_nil, Nat.zero_mul]; exact Nat.zero_le top
  | cons place rest ih =>
    have below := ih falls.2
    have here := falls.1
    rw [List.length_cons, Nat.add_mul, Nat.one_mul]
    omega

/-- Read upwards, the places before those that were there are spaced too. -/
lemma Falls.spaced {top : Nat} (falls : Falls length top places) {behind : List Nat}
    (spaced : Spaced length size top behind) : Spaced length size 0 (places.reverse ++ behind) := by
  induction places generalizing top behind with
  | nil => exact spaced.mono (Nat.zero_le top)
  | cons place rest ih =>
    rw [List.reverse_cons, List.append_assoc]
    exact ih falls.2 ⟨le_refl place, spaced.mono falls.1⟩

/-- A write at a file position; a gap before it is filled. -/
def writeAt (filler : α) (file : List α) (position : Nat) (bytes : List α) : List α :=
  file.take position ++ List.replicate (position - file.length) filler ++ bytes ++
    file.drop (position + bytes.length)

lemma drop_writeAt (filler : α) (file : List α) (position : Nat) (bytes : List α) :
    (writeAt filler file position bytes).drop position =
      bytes ++ file.drop (position + bytes.length) := by
  have front : (file.take position ++ List.replicate (position - file.length) filler).length =
      position := by
    rw [List.length_append, List.length_take, List.length_replicate]
    omega
  rw [writeAt, List.append_assoc _ bytes]
  exact List.drop_left' front

end Substitution
