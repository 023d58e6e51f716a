/-!
# Blank characters

`isBlank` is the Unicode property White_Space. `trim` takes blanks off both ends of a text and
`split` cuts a text at every occurrence of one character. Texts are lists of characters here, so
that both can be reasoned about by induction.
-/

namespace ScopedText.Text

/-- The characters with the Unicode property White_Space. -/
def isBlank (c : Char) : Bool :=
  let n := c.toNat
  (9 ≤ n && n ≤ 13) || n == 0x20 || n == 0x85 || n == 0xA0 || n == 0x1680
    || (0x2000 ≤ n && n ≤ 0x200A) || n == 0x2028 || n == 0x2029 || n == 0x202F
    || n == 0x205F || n == 0x3000

def trimLeft (cs : List Char) : List Char := cs.dropWhile isBlank

def trim (cs : List Char) : List Char := (trimLeft (trimLeft cs).reverse).reverse

/-- The pieces between the occurrences of `sep`, one more than there are occurrences. -/
def split (sep : Char) : List Char → List (List Char)
  | [] => [[]]
  | c :: cs =>
    if c = sep then [] :: split sep cs
    else match split sep cs with
      | [] => [[c]]
      | piece :: pieces => (c :: piece) :: pieces

theorem split_ne_nil (sep : Char) (cs : List Char) : split sep cs ≠ [] := by
  cases cs with
  | nil => simp [split]
  | cons c cs =>
    unfold split
    split
    · simp
    · split <;> simp

/-- No piece holds the character the text was cut at. -/
theorem sep_notMem_of_mem_split {sep : Char} {cs piece : List Char} (h : piece ∈ split sep cs) :
    sep ∉ piece := by
  induction cs generalizing piece with
  | nil =>
    simp only [split, List.mem_singleton] at h
    simp [h]
  | cons c cs ih =>
    unfold split at h
    split at h
    · rcases List.mem_cons.mp h with rfl | h
      · simp
      · exact ih h
    · rename_i hc
      split at h
      · simp only [List.mem_singleton] at h
        simpa [h] using Ne.symm hc
      · rename_i first rest e
        rcases List.mem_cons.mp h with rfl | h
        · have : sep ∉ first := ih (by simp [e])
          simpa [this] using Ne.symm hc
        · exact ih (by simp [e, h])

end ScopedText.Text
