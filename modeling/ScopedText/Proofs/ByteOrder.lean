import Mathlib

/-!
# The order of texts

Texts are compared by their characters, and this is the order of their UTF-8 bytes
(`lt_iff_bytes_lt`). Of two different characters, the smaller one is written by bytes that are
smaller where they first differ, whatever comes behind (`differBelow_of_lt`).
-/

namespace ScopedText.Text

/-- The lists differ, and the first one has the smaller byte where they first do. -/
def DifferBelow (bytes bytes' : List UInt8) : Prop :=
  ∃ common a b rest rest', bytes = common ++ a :: rest ∧ bytes' = common ++ b :: rest' ∧ a < b

theorem DifferBelow.append {bytes bytes' : List UInt8} (h : DifferBelow bytes bytes')
    (behind behind' : List UInt8) : DifferBelow (bytes ++ behind) (bytes' ++ behind') := by
  obtain ⟨common, a, b, rest, rest', rfl, rfl, hlt⟩ := h
  exact ⟨common, a, b, rest ++ behind, rest' ++ behind', by simp, by simp, hlt⟩

theorem append_lt_append_iff (common bytes bytes' : List UInt8) :
    common ++ bytes < common ++ bytes' ↔ bytes < bytes' := by
  induction common with
  | nil => rfl
  | cons a common ih => simp [ih]

theorem DifferBelow.lt {bytes bytes' : List UInt8} (h : DifferBelow bytes bytes') :
    bytes < bytes' := by
  obtain ⟨common, a, b, rest, rest', rfl, rfl, hlt⟩ := h
  rw [append_lt_append_iff, List.cons_lt_cons_iff]
  exact .inl hlt

/-! ## The bytes of a character -/

/-- The last `n` bytes of a number, six bits in each. -/
def continuation : Nat → Nat → List UInt8
  | 0, _ => []
  | n + 1, v => continuation n (v / 64) ++ [UInt8.ofNat (v % 64 + 128)]

/-- A number in `n` bytes behind a first one, which marks how many there are. -/
def written (mark n v : Nat) : List UInt8 := UInt8.ofNat (v / 64 ^ n + mark) :: continuation n v

theorem ofNat_lt_ofNat {a b : Nat} (h : a < b) (hb : b < 256) : UInt8.ofNat a < UInt8.ofNat b := by
  rw [UInt8.lt_iff_toNat_lt, UInt8.toNat_ofNat', UInt8.toNat_ofNat']
  omega

/-- Numbers that are written in the same way are compared by the first byte that differs. -/
theorem differBelow_written {mark n v w : Nat} (h : v < w) (hw : w / 64 ^ n + mark < 256) :
    DifferBelow (written mark n v) (written mark n w) := by
  induction n generalizing v w with
  | zero =>
    simp only [Nat.pow_zero, Nat.div_one] at hw
    refine ⟨[], _, _, [], [], ?_, ?_, ofNat_lt_ofNat (Nat.add_lt_add_right h mark) hw⟩ <;>
      simp [written, continuation]
  | succ n ih =>
    have hwritten (u : Nat) :
        written mark (n + 1) u = written mark n (u / 64) ++ [UInt8.ofNat (u % 64 + 128)] := by
      rw [written, written, continuation, Nat.pow_succ', ← Nat.div_div_eq_div_mul]
      rfl
    rw [hwritten, hwritten]
    by_cases hlt : v / 64 < w / 64
    · refine (ih hlt ?_).append _ _
      rwa [Nat.div_div_eq_div_mul, ← Nat.pow_succ']
    · have heq : v / 64 = w / 64 := by omega
      rw [heq]
      exact ⟨_, _, _, [], [], rfl, rfl, ofNat_lt_ofNat (by omega) (by omega)⟩

theorem toNat_lt (c : Char) : c.toNat < 0x110000 := by
  rcases c.valid with h | h
  · exact Nat.lt_trans h (by decide)
  · exact h.2

/-- A character is written in one to four bytes, the more the greater its number is. -/
theorem utf8EncodeChar_eq (c : Char) : String.utf8EncodeChar c =
    if c.toNat < 0x80 then written 0 0 c.toNat
    else if c.toNat < 0x800 then written 0xC0 1 c.toNat
    else if c.toNat < 0x10000 then written 0xE0 2 c.toNat
    else written 0xF0 3 c.toNat := by
  have hmax := toNat_lt c
  have hvalue : c.toNat = c.val.toNat := rfl
  unfold String.utf8EncodeChar
  rw [hvalue] at hmax ⊢
  generalize c.val.toNat = v at hmax ⊢
  dsimp only
  by_cases h1 : v < 0x80
  · rw [if_pos (by omega), if_pos h1]
    simp [written, continuation]
  by_cases h2 : v < 0x800
  · have hlead : v / 64 % 32 = v / 64 := by omega
    rw [if_neg (by omega), if_pos (by omega), if_neg h1, if_pos h2, hlead]
    rfl
  by_cases h3 : v < 0x10000
  · have hlead : v / 4096 % 16 = v / 64 ^ 2 := by omega
    rw [if_neg (by omega), if_neg (by omega), if_pos (by omega), if_neg h1, if_neg h2, if_pos h3,
      hlead]
    rfl
  · have hlead : v / 262144 % 8 = v / 64 ^ 3 := by omega
    have hnext : v / 4096 = v / 64 / 64 := by omega
    rw [if_neg (by omega), if_neg (by omega), if_neg (by omega), if_neg h1, if_neg h2, if_neg h3,
      hlead, hnext]
    rfl

/-- The bytes of a smaller character are smaller where they first differ. -/
theorem differBelow_of_lt {c d : Char} (h : c < d) :
    DifferBelow (String.utf8EncodeChar c) (String.utf8EncodeChar d) := by
  have hlt : c.toNat < d.toNat := h
  have hmax := toNat_lt d
  have hfirst {mark n v mark' n' w : Nat} (hmarks : v / 64 ^ n + mark < w / 64 ^ n' + mark')
      (hbyte : w / 64 ^ n' + mark' < 256) :
      DifferBelow (written mark n v) (written mark' n' w) :=
    ⟨[], _, _, _, _, rfl, rfl, ofNat_lt_ofNat hmarks hbyte⟩
  rw [utf8EncodeChar_eq, utf8EncodeChar_eq]
  generalize c.toNat = v at hlt ⊢
  generalize d.toNat = w at hlt hmax ⊢
  split_ifs
  all_goals first
    | omega
    | exact differBelow_written hlt (by omega)
    | exact hfirst (by omega) (by omega)

/-! ## The bytes of a text -/

theorem utf8EncodeChar_ne_nil (c : Char) : String.utf8EncodeChar c ≠ [] := by
  intro h
  have hlen := String.length_utf8EncodeChar c
  rw [h, List.length_nil] at hlen
  exact absurd hlen.symm (Nat.ne_of_gt (Char.utf8Size_pos c))

theorem lt_iff_flatMap_lt (cs ds : List Char) :
    cs < ds ↔ cs.flatMap String.utf8EncodeChar < ds.flatMap String.utf8EncodeChar := by
  induction cs generalizing ds with
  | nil =>
    cases ds with
    | nil => simp
    | cons d ds =>
      obtain ⟨b, bytes, hb⟩ := List.exists_cons_of_ne_nil (utf8EncodeChar_ne_nil d)
      simp [hb]
  | cons c cs ih =>
    cases ds with
    | nil => simp
    | cons d ds =>
      rw [List.flatMap_cons, List.flatMap_cons, List.cons_lt_cons_iff]
      rcases lt_trichotomy c d with hlt | rfl | hgt
      · have := ((differBelow_of_lt hlt).append (cs.flatMap String.utf8EncodeChar)
          (ds.flatMap String.utf8EncodeChar)).lt
        simp [hlt, this]
      · simp [append_lt_append_iff, ih]
      · have := ((differBelow_of_lt hgt).append (ds.flatMap String.utf8EncodeChar)
          (cs.flatMap String.utf8EncodeChar)).lt
        simp [not_lt_of_gt hgt, ne_of_gt hgt, List.le_of_lt this]

def bytes (s : String) : List UInt8 := s.toUTF8.data.toList

theorem bytes_eq_flatMap (s : String) : bytes s = s.toList.flatMap String.utf8EncodeChar := by
  rw [bytes, String.toUTF8_eq_toByteArray, ← String.utf8Encode_toList, List.utf8Encode,
    List.data_toByteArray]

/-- The order of texts is the order of their bytes. -/
theorem lt_iff_bytes_lt (s t : String) : s < t ↔ bytes s < bytes t := by
  rw [bytes_eq_flatMap, bytes_eq_flatMap, String.lt_iff_toList_lt, lt_iff_flatMap_lt]

end ScopedText.Text
