import Mathlib.Tactic.SplitIfs

/-!
# The order of texts and of their bytes

Texts are ordered by their first different code points. UTF-8 keeps this order: the text that comes
first has the smaller byte where the encodings of the two differ first, for a code point that needs
more bytes begins with a greater one.
-/
namespace CommandRoutes.Text

/-- The UTF-8 encoding of a text. -/
def bytes (text : String) : List UInt8 := text.toUTF8.data.toList

theorem bytes_eq (text : String) : bytes text = text.toList.flatMap String.utf8EncodeChar := by
  have hdata : ∀ chars : List Char, bytes (String.ofList chars) =
      chars.flatMap String.utf8EncodeChar := by
    intro chars
    change (String.ofList chars).toByteArray.data.toList = _
    rw [String.toByteArray_ofList, List.utf8Encode, List.data_toByteArray]
  rw [← hdata text.toList, String.ofList_toList]

/-- The first digits in which two numbers differ decide, in digits of six bits. -/
theorem div_lt_or_mod_lt {m n : Nat} (h : m < n) :
    m / 64 < n / 64 ∨ m / 64 = n / 64 ∧ m % 64 < n % 64 := by omega

/-- Of two code points the smaller one has the smaller encoding, and neither encoding begins the
other. -/
theorem utf8EncodeChar_append_lt {a b : Char} (h : a < b) (rest rest' : List UInt8) :
    String.utf8EncodeChar a ++ rest < String.utf8EncodeChar b ++ rest' := by
  have hlt : a.val.toNat < b.val.toNat := UInt32.lt_iff_toNat_lt.mp (Char.lt_def.mp h)
  have hbound : b.val.toNat < 1114112 := by
    rcases b.valid with hb | hb <;> omega
  unfold String.utf8EncodeChar
  dsimp only
  generalize a.val.toNat = m at hlt
  generalize b.val.toNat = n at hlt hbound
  have hlow := div_lt_or_mod_lt hlt
  have hmiddle := @div_lt_or_mod_lt (m / 64) (n / 64)
  have hhigh := @div_lt_or_mod_lt (m / 64 / 64) (n / 64 / 64)
  simp only [Nat.div_div_eq_div_mul, Nat.reduceMul] at hlow hmiddle hhigh
  have hbound' : m < 1114112 := Nat.lt_trans hlt hbound
  split_ifs <;>
    simp (disch := omega) only [List.cons_append, List.nil_append, List.cons_lt_cons_iff,
      UInt8.lt_iff_toNat_lt, ← UInt8.toNat_inj, UInt8.toNat_ofNat', Nat.reducePow,
      Nat.mod_eq_of_lt] <;>
    omega

theorem flatMap_utf8EncodeChar_lt {chars chars' : List Char} (h : chars < chars') :
    chars.flatMap String.utf8EncodeChar < chars'.flatMap String.utf8EncodeChar := by
  induction h with
  | @nil c rest =>
      obtain ⟨b, more, hb⟩ := List.exists_cons_of_ne_nil (String.utf8EncodeChar_ne_nil (c := c))
      rw [List.flatMap_nil, List.flatMap_cons, hb]
      exact List.nil_lt_cons _ _
  | cons _ ih =>
      rw [List.flatMap_cons, List.flatMap_cons]
      exact List.append_left_lt ih
  | rel hlt =>
      rw [List.flatMap_cons, List.flatMap_cons]
      exact utf8EncodeChar_append_lt hlt _ _

/-- Texts in order have their bytes in order. -/
theorem bytes_lt {text text' : String} (h : text < text') : bytes text < bytes text' := by
  rw [bytes_eq, bytes_eq]
  exact flatMap_utf8EncodeChar_lt (String.lt_iff.mp h)

end CommandRoutes.Text
