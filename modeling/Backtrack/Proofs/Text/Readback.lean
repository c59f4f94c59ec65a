/-
# Characters and numbers that are written are read back

Three notations are written in one place and read in another: UTF-8, hexadecimal digits in an
escape, decimal digits in a count or a reference.  For each of them the reader undoes the writer,
whatever bytes come after.

* `Utf8.decode_encode`: every character except surrogates, which have no encoding;
* `Lexer.hexDigits?_upperHex`: every number that fits the width it is padded to;
* `Ascii.decimalValue_decimal`: every number.

The other way round, `Utf8.ReadsSequence` lists the bytes that are read as one character beyond
ASCII.  What a name of a property may look like is settled here too
(`Bytes.ofString_toText_of_lookup?`), since such a name is kept as text and has to come back as the
bytes it was read from.
-/
import Mathlib.Algebra.Group.Nat.Defs
import Mathlib.Data.List.TakeDrop
import Backtrack.Pattern.Lexer

namespace Backtrack

/-! ## 1. UTF-8

The reader accepts shortest forms only, and no surrogates, so there is one sequence of bytes for
each character.  The bounds of the bytes are those of the character, cut into groups of six
bits. -/

namespace Utf8

theorem tail?_ofNat {p : Nat} (h : p < 0x40) : tail? (UInt8.ofNat (0x80 + p)) = some p := by
  have hn := UInt8.toNat_ofNat_of_lt' (n := 0x80 + p) (by simp only [UInt8.size]; omega)
  unfold tail?
  rw [if_pos, hn, Nat.add_sub_cancel_left]
  rw [UInt8.le_iff_toNat_le, UInt8.le_iff_toNat_le, hn]
  simp only [UInt8.reduceToNat]
  omega

/-- A byte after the first is beyond ASCII, and gives six bits. -/
theorem bounds_of_tail? {b : UInt8} {p : Nat} (h : tail? b = some p) :
    0x80 ≤ b.toNat ∧ p < 0x40 := by
  unfold tail? at h
  split at h
  · rename_i hb
    have lo := UInt8.le_iff_toNat_le.mp hb.1
    have hi := UInt8.le_iff_toNat_le.mp hb.2
    simp only [UInt8.reduceToNat] at lo hi
    have := Option.some.inj h
    omega
  · cases h

/-- The ways in which a byte and those after it are a sequence of several bytes. -/
inductive ReadsSequence : UInt8 → Bytes → Nat × Nat → Prop
  | two {b x : UInt8} {p : Nat} (lo : 0xC2 ≤ b.toNat) (hi : b.toNat ≤ 0xDF)
    (hx : tail? x = some p) (after : Bytes) :
    ReadsSequence b (x :: after) ((b.toNat - 0xC0) * 0x40 + p, 2)
  | three {b x y : UInt8} {p q : Nat} (hi : b.toNat ≤ 0xEF)
    (hx : tail? x = some p) (hy : tail? y = some q)
    (long : 0x800 ≤ (b.toNat - 0xE0) * 0x1000 + p * 0x40 + q) (after : Bytes) :
    ReadsSequence b (x :: y :: after) ((b.toNat - 0xE0) * 0x1000 + p * 0x40 + q, 3)
  | four {b x y z : UInt8} {p q r : Nat}
    (hx : tail? x = some p) (hy : tail? y = some q) (hz : tail? z = some r)
    (long : 0x10000 ≤ (b.toNat - 0xF0) * 0x40000 + p * 0x1000 + q * 0x40 + r)
    (le : (b.toNat - 0xF0) * 0x40000 + p * 0x1000 + q * 0x40 + r ≤ maxCodePoint)
    (after : Bytes) :
    ReadsSequence b (x :: y :: z :: after)
      ((b.toNat - 0xF0) * 0x40000 + p * 0x1000 + q * 0x40 + r, 4)

theorem readsSequence_of_sequence? {b : UInt8} {rest : Bytes} {r : Nat × Nat}
    (h : sequence? b rest = some r) : ReadsSequence b rest r := by
  unfold sequence? at h
  simp only [UInt8.le_iff_toNat_le, UInt8.reduceToNat] at h
  split at h
  · rename_i lead
    split at h
    · obtain ⟨p, hx, rfl⟩ := Option.map_eq_some_iff.mp h
      exact .two lead.1 lead.2 hx _
    · cases h
  split at h
  · rename_i lead
    split at h
    · split at h
      · rename_i hx hy
        split at h
        · cases h
        · rename_i range
          obtain rfl := Option.some.inj h
          exact .three lead.2 hx hy (Nat.le_of_not_lt fun short => range (.inl short)) _
      · cases h
    · cases h
  split at h
  · split at h
    · split at h
      · rename_i hx hy hz
        split at h
        · cases h
        · rename_i range
          obtain rfl := Option.some.inj h
          exact .four hx hy hz (Nat.le_of_not_lt fun short => range (.inl short))
            (Nat.le_of_not_lt fun high => range (.inr high)) _
      · cases h
    · cases h
  · cases h

/-- Sequences of several bytes are for characters beyond ASCII. -/
theorem ReadsSequence.le_value {b : UInt8} {rest : Bytes} {r : Nat × Nat}
    (h : ReadsSequence b rest r) : 0x80 ≤ r.1 := by
  cases h <;> dsimp only <;> omega

/-- Whatever bytes are read, what is read is a character. -/
theorem ReadsSequence.value_le {b : UInt8} {rest : Bytes} {r : Nat × Nat}
    (h : ReadsSequence b rest r) : r.1 ≤ maxCodePoint := by
  rw [maxCodePoint]
  cases h with
  | two lo hi hx =>
    have := (bounds_of_tail? hx).2
    dsimp only
    omega
  | three hi hx hy =>
    have := (bounds_of_tail? hx).2
    have := (bounds_of_tail? hy).2
    dsimp only
    omega
  | four hx hy hz long le => exact le

/-- A byte is read at least, and no more of them than there are. -/
theorem ReadsSequence.width {b : UInt8} {rest : Bytes} {r : Nat × Nat}
    (h : ReadsSequence b rest r) : 1 ≤ r.2 ∧ r.2 ≤ rest.length + 1 := by
  cases h <;> simp

/-- All bytes of a sequence after its first are beyond ASCII. -/
theorem ReadsSequence.le_of_mem {b : UInt8} {rest : Bytes} {r : Nat × Nat}
    (h : ReadsSequence b rest r) : ∀ x ∈ rest.take (r.2 - 1), 0x80 ≤ x.toNat := by
  cases h with
  | two lo hi hx => simpa using (bounds_of_tail? hx).1
  | three hi hx hy => simpa using ⟨(bounds_of_tail? hx).1, (bounds_of_tail? hy).1⟩
  | four hx hy hz =>
    simpa using ⟨(bounds_of_tail? hx).1, (bounds_of_tail? hy).1, (bounds_of_tail? hz).1⟩

/-- So a character has a width, and one that is not longer than the text. -/
theorem width_decode (b : UInt8) (rest : Bytes) :
    1 ≤ (decode b rest).2 ∧ (decode b rest).2 ≤ rest.length + 1 := by
  unfold decode
  split
  · simp
  · cases h : sequence? b rest with
    | none => simp
    | some r => exact (readsSequence_of_sequence? h).width

theorem decode_le (b : UInt8) (rest : Bytes) : (decode b rest).1 ≤ maxCodePoint := by
  unfold decode
  split
  · have := b.toNat_lt
    rw [maxCodePoint]
    dsimp only
    omega
  · cases h : sequence? b rest with
    | none => simp [replacement, maxCodePoint]
    | some r => exact (readsSequence_of_sequence? h).value_le

theorem sequence?_two {c : Nat} (lo : 0x80 ≤ c) (hi : c < 0x800) (after : Bytes) :
    sequence? (UInt8.ofNat (0xC0 + c / 0x40)) (UInt8.ofNat (0x80 + c % 0x40) :: after) =
      some (c, 2) := by
  have hn := UInt8.toNat_ofNat_of_lt' (n := 0xC0 + c / 0x40) (by simp only [UInt8.size]; omega)
  unfold sequence?
  simp only [UInt8.le_iff_toNat_le, hn, UInt8.reduceToNat]
  rw [if_pos (by omega), tail?_ofNat (Nat.mod_lt c (by decide))]
  simp only [Option.map_some, Option.some.injEq, Prod.mk.injEq, and_true]
  omega

theorem sequence?_three {c : Nat} (lo : 0x800 ≤ c) (hi : c < 0x10000)
    (hs : ¬ (0xD800 ≤ c ∧ c ≤ 0xDFFF)) (after : Bytes) :
    sequence? (UInt8.ofNat (0xE0 + c / 0x1000)) (UInt8.ofNat (0x80 + c / 0x40 % 0x40) ::
      UInt8.ofNat (0x80 + c % 0x40) :: after) = some (c, 3) := by
  have hn := UInt8.toNat_ofNat_of_lt' (n := 0xE0 + c / 0x1000) (by simp only [UInt8.size]; omega)
  have sum : (0xE0 + c / 0x1000 - 0xE0) * 0x1000 + c / 0x40 % 0x40 * 0x40 + c % 0x40 = c := by
    omega
  unfold sequence?
  simp only [UInt8.le_iff_toNat_le, hn, UInt8.reduceToNat]
  rw [if_neg (by omega), if_pos (by omega), tail?_ofNat (Nat.mod_lt (c / 0x40) (by decide)),
    tail?_ofNat (Nat.mod_lt c (by decide))]
  simp only [sum]
  rw [if_neg (by omega)]

theorem sequence?_four {c : Nat} (lo : 0x10000 ≤ c) (hi : c ≤ 0x10FFFF) (after : Bytes) :
    sequence? (UInt8.ofNat (0xF0 + c / 0x40000)) (UInt8.ofNat (0x80 + c / 0x1000 % 0x40) ::
      UInt8.ofNat (0x80 + c / 0x40 % 0x40) :: UInt8.ofNat (0x80 + c % 0x40) :: after) =
        some (c, 4) := by
  have hn := UInt8.toNat_ofNat_of_lt' (n := 0xF0 + c / 0x40000)
    (by simp only [UInt8.size]; omega)
  have sum : (0xF0 + c / 0x40000 - 0xF0) * 0x40000 + c / 0x1000 % 0x40 * 0x1000 +
      c / 0x40 % 0x40 * 0x40 + c % 0x40 = c := by omega
  unfold sequence?
  simp only [UInt8.le_iff_toNat_le, hn, UInt8.reduceToNat]
  rw [if_neg (by omega), if_neg (by omega), if_pos (by omega),
    tail?_ofNat (Nat.mod_lt (c / 0x1000) (by decide)),
    tail?_ofNat (Nat.mod_lt (c / 0x40) (by decide)), tail?_ofNat (Nat.mod_lt c (by decide))]
  simp only [sum, maxCodePoint]
  rw [if_neg (by omega)]

/-- An ASCII byte is a character of its own, whatever follows. -/
theorem decode_ascii {b : UInt8} (h : b.toNat < 0x80) (s : Bytes) : decode b s = (b.toNat, 1) :=
  if_pos (UInt8.lt_iff_toNat_lt.mpr h)

theorem decode_of_sequence? {b : UInt8} {s : Bytes} {r : Nat × Nat} (hb : 0x80 ≤ b.toNat)
    (h : sequence? b s = some r) : decode b s = r := by
  have : ¬ b < 0x80 := by
    rw [UInt8.lt_iff_toNat_lt]
    exact Nat.not_lt.mpr hb
  rw [decode, if_neg this, h, Option.getD_some]

/-- Beyond ASCII no byte of a character is an ASCII byte. -/
theorem le_of_mem_encode {c : Nat} (h : 0x80 ≤ c) : ∀ b ∈ encode c, 0x80 ≤ b.toNat := by
  have large : ∀ {n : Nat}, 0x80 ≤ n → n < 0x100 → 0x80 ≤ (UInt8.ofNat n).toNat := by
    intro n h1 h2
    rwa [UInt8.toNat_ofNat_of_lt' h2]
  unfold encode
  rw [if_neg (by omega)]
  split
  · simp only [List.forall_mem_cons, List.not_mem_nil, false_imp_iff, implies_true, and_true]
    exact ⟨large (by omega) (by omega), large (by omega) (by omega)⟩
  split
  · exact List.forall_mem_cons.mpr ⟨by decide, List.forall_mem_cons.mpr ⟨by decide, by simp⟩⟩
  rename_i hc
  rw [maxCodePoint] at hc
  split
  · simp only [List.forall_mem_cons, List.not_mem_nil, false_imp_iff, implies_true, and_true]
    exact ⟨large (by omega) (by omega), large (by omega) (by omega), large (by omega) (by omega)⟩
  · simp only [List.forall_mem_cons, List.not_mem_nil, false_imp_iff, implies_true, and_true]
    exact ⟨large (by omega) (by omega), large (by omega) (by omega), large (by omega) (by omega),
      large (by omega) (by omega)⟩

theorem encode_ne_nil (c : Nat) : encode c ≠ [] := by
  unfold encode
  repeat' split
  all_goals simp

theorem encode_ascii {c : Nat} (h : c < 0x80) : encode c = [UInt8.ofNat c] := if_pos h

/-- **A character that is written is read back**, whatever comes after it.  By cases on its width,
which its first byte shows. -/
theorem decode_encode {c : Nat} (hc : c ≤ 0x10FFFF) (hs : ¬ (0xD800 ≤ c ∧ c ≤ 0xDFFF))
    {after s : Bytes} {b : UInt8} (h : encode c ++ after = b :: s) :
    decode b s = (c, (encode c).length) := by
  by_cases h7 : c < 0x80
  · rw [encode_ascii h7] at h ⊢
    obtain ⟨rfl, rfl⟩ := List.cons.inj h
    have hn := UInt8.toNat_ofNat_of_lt' (n := c) (by simp only [UInt8.size]; omega)
    rw [decode_ascii (by rwa [hn]), hn]
    rfl
  have lead : 0x80 ≤ b.toNat := by
    refine le_of_mem_encode (Nat.le_of_not_lt h7) b ?_
    obtain ⟨x, xs, he⟩ := List.exists_cons_of_ne_nil (encode_ne_nil c)
    rw [he] at h ⊢
    obtain ⟨rfl, -⟩ := List.cons.inj h
    exact List.mem_cons_self
  refine decode_of_sequence? lead ?_
  unfold encode at h ⊢
  rw [if_neg h7] at h ⊢
  by_cases h11 : c < 0x800
  · rw [if_pos h11] at h ⊢
    obtain ⟨rfl, rfl⟩ := List.cons.inj h
    exact sequence?_two (by omega) h11 after
  rw [if_neg h11, if_neg (by rw [maxCodePoint]; omega)] at h ⊢
  by_cases h16 : c < 0x10000
  · rw [if_pos h16] at h ⊢
    obtain ⟨rfl, rfl⟩ := List.cons.inj h
    exact sequence?_three (by omega) h16 hs after
  · rw [if_neg h16] at h ⊢
    obtain ⟨rfl, rfl⟩ := List.cons.inj h
    exact sequence?_four (by omega) hc after

/-- The first byte of a character is the character itself, or it is beyond ASCII. -/
theorem head_encode {c : Nat} {after s : Bytes} {b : UInt8} (h : encode c ++ after = b :: s) :
    (c < 0x80 ∧ b.toNat = c) ∨ 0x80 ≤ b.toNat := by
  by_cases hc : c < 0x80
  · rw [encode_ascii hc] at h
    obtain ⟨rfl, -⟩ := List.cons.inj h
    exact .inl ⟨hc, UInt8.toNat_ofNat_of_lt' (Nat.lt_trans hc (by decide))⟩
  · obtain ⟨x, xs, he⟩ := List.exists_cons_of_ne_nil (encode_ne_nil c)
    rw [he] at h
    obtain ⟨rfl, -⟩ := List.cons.inj h
    exact .inr (le_of_mem_encode (Nat.le_of_not_lt hc) x (by rw [he]; exact List.mem_cons_self))

end Utf8

/-! ## 2. Texts of ASCII characters -/

namespace Bytes

theorem ofString_append (s t : String) : ofString (s ++ t) = ofString s ++ ofString t := by
  simp only [ofString, String.toList_append, List.flatMap_append]

/-- A text of ASCII characters has one byte for each. -/
theorem ofString_ofList {cs : List Char} (h : ∀ c ∈ cs, c.toNat < 0x80) :
    ofString (String.ofList cs) = cs.map Ascii.byte := by
  rw [ofString, String.toList_ofList]
  induction cs with
  | nil => rfl
  | cons c cs ih =>
    obtain ⟨hc, hcs⟩ := List.forall_mem_cons.mp h
    rw [List.flatMap_cons, ih hcs, Utf8.encode_ascii hc]
    rfl

/-- A text of ASCII characters is read back from its bytes. -/
theorem toText_ofString {s : String} (h : ∀ c ∈ s.toList, c.toNat < 0x80) :
    toText (ofString s) = s := by
  have glyphs : ∀ cs : List Char, (∀ c ∈ cs, c.toNat < 0x80) →
      (Utf8.glyphs (cs.map Ascii.byte)).map (fun g => Char.ofNat g.value) = cs := by
    intro cs h
    induction cs with
    | nil => simp [Utf8.glyphs]
    | cons c cs ih =>
      obtain ⟨hc, hcs⟩ := List.forall_mem_cons.mp h
      have value : (Ascii.byte c).toNat = c.toNat :=
        UInt8.toNat_ofNat_of_lt' (Nat.lt_trans hc (by decide))
      rw [List.map_cons, Utf8.glyphs, Utf8.decode_ascii (by rwa [value]), value]
      simp [ih hcs]
  have := ofString_ofList h
  rw [String.ofList_toList] at this
  rw [toText, this, glyphs _ h, String.ofList_toList]

end Bytes

/-- What is left after a text that has been read. -/
theorem drop_of_append_eq_cons {text after s : Bytes} {b : UInt8} (h : text ++ after = b :: s)
    (ht : text ≠ []) : s.drop (text.length - 1) = after := by
  obtain ⟨x, xs, rfl⟩ := List.exists_cons_of_ne_nil ht
  obtain ⟨-, rfl⟩ := List.cons.inj h
  exact List.drop_left

namespace Ascii

/-- A byte that has not come before is found. -/
theorem cut?_append {b : UInt8} {before : Bytes} (h : b ∉ before) (after : Bytes) :
    cut? b (before ++ b :: after) = some (before, after) := by
  induction before with
  | nil => simp [cut?]
  | cons x before ih =>
    rw [List.mem_cons, not_or] at h
    rw [List.cons_append, cut?, if_neg (Ne.symm h.1), ih h.2]
    rfl

theorem cut?_eq_none {b : UInt8} {s : Bytes} (h : b ∉ s) : cut? b s = none := by
  induction s with
  | nil => rfl
  | cons x s ih =>
    rw [List.mem_cons, not_or] at h
    rw [cut?, if_neg (Ne.symm h.1), ih h.2]
    rfl

end Ascii

/-! ## 3. Hexadecimal digits

Digits are written from a number and read as a fold, most significant digit first.  Zeros in front
add nothing. -/

namespace Ascii

/-- The byte of a digit as it is written. -/
def hexByte (d : Nat) : UInt8 := byte d.digitChar.toUpper

theorem hexValue?_hexByte : ∀ d < 16, hexValue? (hexByte d) = some d := by decide

theorem hexDigits_ascii : ∀ d < 16, d.digitChar.toUpper.toNat < 0x80 := by decide

/-- The digits of a number are digits. -/
theorem exists_of_mem_toDigits {base n : Nat} (hb : 1 < base) :
    ∀ c ∈ Nat.toDigits base n, ∃ d < base, c = d.digitChar := by
  induction n using Nat.strongRecOn with
  | ind n ih =>
    rw [Nat.toDigits_eq_if hb]
    split
    · rename_i hn
      intro c hc
      exact ⟨n, hn, List.mem_singleton.mp hc⟩
    · rename_i hn
      intro c hc
      rcases List.mem_append.mp hc with hc | hc
      · exact ih _ (Nat.div_lt_self (by omega) hb) c hc
      · exact ⟨n % base, Nat.mod_lt n (by omega), List.mem_singleton.mp hc⟩

theorem ofString_upperHex (width n : Nat) :
    Bytes.ofString (upperHex width n) =
      List.replicate (width - (Nat.toDigits 16 n).length) (hexByte 0) ++
        (Nat.toDigits 16 n).map (fun c => byte c.toUpper) := by
  unfold upperHex
  rw [Bytes.ofString_ofList]
  · simp only [List.map_append, List.map_replicate, List.map_map, List.length_map]
    rfl
  · intro c hc
    rcases List.mem_append.mp hc with hc | hc
    · rw [List.eq_of_mem_replicate hc]
      decide
    · obtain ⟨x, hx, rfl⟩ := List.mem_map.mp hc
      obtain ⟨d, hd, rfl⟩ := exists_of_mem_toDigits (by decide) x hx
      exact hexDigits_ascii d hd

/-- Reads one more digit. -/
def hexStep (n : Option Nat) (b : UInt8) : Option Nat := n.bind fun n => (hexValue? b).map (n * 16 + ·)

theorem hexStep_hexByte {n d : Nat} (h : d < 16) :
    hexStep (some n) (hexByte d) = some (n * 16 + d) := by
  simp [hexStep, hexValue?_hexByte d h]

theorem foldl_hexStep_zeros (k : Nat) :
    (List.replicate k (hexByte 0)).foldl hexStep (some 0) = some 0 := by
  induction k with
  | zero => rfl
  | succ k ih =>
    rw [List.replicate_succ, List.foldl_cons, hexStep_hexByte (by decide)]
    exact ih

theorem foldl_hexStep_toDigits (n : Nat) :
    ((Nat.toDigits 16 n).map (fun c => byte c.toUpper)).foldl hexStep (some 0) = some n := by
  induction n using Nat.strongRecOn with
  | ind n ih =>
    rw [Nat.toDigits_eq_if (by decide)]
    split
    · rename_i hn
      rw [List.map_singleton, List.foldl_cons, List.foldl_nil]
      exact (hexStep_hexByte hn).trans (by simp)
    · rw [List.map_append, List.foldl_append, ih _ (Nat.div_lt_self (by omega) (by decide)),
        List.map_singleton, List.foldl_cons, List.foldl_nil]
      refine (hexStep_hexByte (Nat.mod_lt n (by decide))).trans ?_
      rw [Nat.div_add_mod' n 16]

end Ascii

open Ascii in
/-- **A number in hexadecimal digits is read back**, whatever comes after it.  Zeros are put in
front to the width, so the reader finds as many digits as it expects. -/
theorem Lexer.hexDigits?_upperHex (width : Nat) {n : Nat} (hw : 0 < width) (h : n < 16 ^ width)
    (after : Bytes) :
    (Bytes.ofString (upperHex width n)).length = width ∧
      hexDigits? width (Bytes.ofString (upperHex width n) ++ after) = some n := by
  have hlen : (Bytes.ofString (upperHex width n)).length = width := by
    have := (Nat.length_toDigits_le_iff (b := 16) (n := n) (by decide) hw).mpr h
    rw [ofString_upperHex, List.length_append, List.length_replicate, List.length_map]
    omega
  refine ⟨hlen, ?_⟩
  have htake : (Bytes.ofString (upperHex width n) ++ after).take width =
      Bytes.ofString (upperHex width n) := by
    rw [List.take_append_of_le_length (by omega), List.take_of_length_le (by omega)]
  unfold hexDigits?
  rw [List.length_append, if_neg (by omega), htake]
  have hne : Bytes.ofString (upperHex width n) ≠ [] := by
    intro he
    rw [he, List.length_nil] at hlen
    omega
  unfold hexNumber?
  split
  · exact absurd ‹_› hne
  · change List.foldl hexStep (some 0) _ = some n
    rw [ofString_upperHex, List.foldl_append, foldl_hexStep_zeros, foldl_hexStep_toDigits]

/-! ## 4. Decimal digits -/

namespace Ascii

/-- The digits of a number as they are written. -/
def decimal (n : Nat) : Bytes := Bytes.ofString (toString n)

theorem decimal_eq (n : Nat) : decimal n = (Nat.toDigits 10 n).map byte := by
  rw [decimal, Nat.toString_eq_ofList_toDigits]
  refine Bytes.ofString_ofList ?_
  have digit : ∀ d < 10, d.digitChar.toNat < 0x80 := by decide
  intro c hc
  obtain ⟨d, hd, rfl⟩ := exists_of_mem_toDigits (by decide) c hc
  exact digit d hd

theorem isDigit_of_mem_decimal (n : Nat) : ∀ b ∈ decimal n, isDigit b = true := by
  have digit : ∀ d < 10, isDigit (byte d.digitChar) = true := by decide
  intro b hb
  rw [decimal_eq] at hb
  obtain ⟨c, hc, rfl⟩ := List.mem_map.mp hb
  obtain ⟨d, hd, rfl⟩ := exists_of_mem_toDigits (by decide) c hc
  exact digit d hd

theorem decimal_ne_nil (n : Nat) : decimal n ≠ [] := by
  rw [decimal_eq]
  simp

theorem isDecimal_decimal (n : Nat) : isDecimal (decimal n) = true := by
  rw [isDecimal, Bool.and_eq_true, Bool.not_eq_true', List.isEmpty_eq_false_iff, List.all_eq_true]
  exact ⟨decimal_ne_nil n, isDigit_of_mem_decimal n⟩

/-- **A number in decimal digits is read back.** -/
theorem decimalValue_decimal (n : Nat) : decimalValue (decimal n) = n := by
  have digit : ∀ d < 10, (byte d.digitChar).toNat - 0x30 = d := by decide
  induction n using Nat.strongRecOn with
  | ind n ih =>
    rw [decimalValue, decimal_eq, Nat.toDigits_eq_if (by decide)]
    split
    · rename_i hn
      simp [digit n hn]
    · have := ih _ (Nat.div_lt_self (n := n) (k := 10) (by omega) (by decide))
      rw [decimalValue, decimal_eq] at this
      rw [List.map_append, List.foldl_append, this, List.map_singleton, List.foldl_cons,
        List.foldl_nil, digit _ (Nat.mod_lt n (by decide)), Nat.div_add_mod' n 10]

/-- A number other than zero does not start with a zero. -/
theorem head_decimal {n : Nat} (h : 1 ≤ n) {b : UInt8} {s : Bytes} (hd : decimal n = b :: s) :
    b ≠ byte '0' := by
  have digit : ∀ d < 10, 1 ≤ d → byte d.digitChar ≠ byte '0' := by decide
  induction n using Nat.strongRecOn generalizing s with
  | ind n ih =>
    rw [decimal_eq, Nat.toDigits_eq_if (by decide)] at hd
    split at hd
    · rename_i hn
      obtain ⟨rfl, -⟩ := List.cons.inj hd
      exact digit n hn h
    · obtain ⟨x, xs, hx⟩ := List.exists_cons_of_ne_nil (decimal_ne_nil (n / 10))
      have step := hx
      rw [decimal_eq] at hx
      rw [List.map_append, hx] at hd
      obtain ⟨rfl, -⟩ := List.cons.inj hd
      exact ih (n / 10) (Nat.div_lt_self (by omega) (by decide)) (by omega) step

end Ascii

/-! ## 5. Names of properties

That the name of a property is in a table is all that is known of it, so what such a name looks
like is read off the tables. -/

/-- An ASCII character is read from its own byte. -/
theorem Utf8.decode_of_lt {b : UInt8} {rest : Bytes} (h : (decode b rest).1 < 0x80) :
    decode b rest = (b.toNat, 1) := by
  unfold decode at h ⊢
  split
  · rfl
  · rename_i hb
    rw [if_neg hb] at h
    cases hr : sequence? b rest with
    | none =>
      rw [hr] at h
      simp [replacement] at h
    | some r =>
      have := (readsSequence_of_sequence? hr).le_value
      rw [hr, Option.getD_some] at h
      omega

/-- Beyond ASCII every byte of a character is beyond ASCII. -/
theorem Utf8.le_of_decode {b : UInt8} {rest : Bytes} (h : 0x80 ≤ (decode b rest).1) :
    ∀ x ∈ b :: rest.take ((decode b rest).2 - 1), 0x80 ≤ x.toNat := by
  have lead : 0x80 ≤ b.toNat := by
    refine Nat.le_of_not_lt fun hb => ?_
    rw [decode_ascii hb] at h
    exact absurd hb (Nat.not_lt.mpr h)
  have hb : ¬ b < 0x80 := by
    rw [UInt8.lt_iff_toNat_lt]
    exact Nat.not_lt.mpr lead
  refine List.forall_mem_cons.mpr ⟨lead, ?_⟩
  rw [decode, if_neg hb]
  cases hs : sequence? b rest with
  | none => simp
  | some r =>
    rw [Option.getD_some]
    exact (readsSequence_of_sequence? hs).le_of_mem

/-- A text of ASCII characters has lost none of the bytes it was read from. -/
theorem Bytes.map_byte_toText {s : Bytes} (h : ∀ c ∈ s.toText.toList, c.toNat < 0x80 ∧ c ≠ '\x00') :
    s.toText.toList.map Ascii.byte = s := by
  rw [toText, String.toList_ofList] at h ⊢
  fun_induction Utf8.glyphs s with
  | case1 => rfl
  | case2 b rest d ih =>
    rw [List.map_cons, List.forall_mem_cons] at h
    obtain ⟨⟨hlt, hne⟩, h⟩ := h
    -- A number that is no character would have been read as the first of them all.
    have valid : d.1.isValidChar := by
      refine Classical.byContradiction fun hv => hne ?_
      change Char.ofNat d.1 = '\x00'
      rw [Char.ofNat, dif_neg hv]
      rfl
    have value : (Char.ofNat d.1).toNat = d.1 := by
      rw [Char.ofNat, dif_pos valid]
      rfl
    have hd := @Utf8.decode_of_lt b rest (by rw [← value]; exact hlt)
    have width : d.2 = 1 := congrArg Prod.snd hd
    have byte : Ascii.byte (Char.ofNat d.1) = b := by
      rw [Ascii.byte, value]
      change UInt8.ofNat (Utf8.decode b rest).1 = b
      rw [hd]
      simp
    rw [width] at ih h
    simp only [List.map_cons, byte, width, ih h]
    rfl

/-- The bytes that occur in names of properties. -/
def Ascii.isNameByte (b : UInt8) : Bool :=
  isLetter b || isDigit b || b == byte '_' || b == equals

theorem Ascii.lt_of_isNameByte {b : UInt8} (h : isNameByte b = true) : b.toNat < 0x80 := by
  simp only [isNameByte, isLetter, isDigit, Bool.or_eq_true, Bool.and_eq_true, decide_eq_true_eq,
    beq_iff_eq, UInt8.le_iff_toNat_le, UInt8.reduceToNat] at h
  rcases h with ((h | h) | rfl) | rfl
  · omega
  · omega
  · decide
  · decide

namespace Unicode

/-- Whether a text has only such bytes. -/
def isName (s : String) : Bool := s.toByteArray.data.toList.all Ascii.isNameByte

/-- A text of such bytes is a text of such characters. -/
theorem forall_of_isName {s : String} (h : isName s = true) :
    ∀ c ∈ s.toList, c.toNat < 0x80 ∧ Ascii.isNameByte (Ascii.byte c) = true := by
  intro c hc
  have bytes : ∀ b ∈ String.utf8EncodeChar c, Ascii.isNameByte b = true := by
    intro b hb
    refine List.all_eq_true.mp h b ?_
    rw [← String.utf8Encode_toList, List.utf8Encode, List.data_toByteArray]
    exact List.mem_flatMap.mpr ⟨c, hc, hb⟩
  by_cases hv : c.val.toNat ≤ 0x7F
  · refine ⟨Nat.lt_succ_of_le hv, bytes _ ?_⟩
    rw [String.utf8EncodeChar, if_pos hv]
    exact List.mem_singleton_self _
  -- The last byte of any other character is no ASCII byte.
  · have last : UInt8.ofNat (c.val.toNat % 0x40 + 0x80) ∈ String.utf8EncodeChar c := by
      rw [String.utf8EncodeChar, if_neg hv]
      split
      · exact List.mem_of_getLast? rfl
      split
      · exact List.mem_of_getLast? rfl
      · exact List.mem_of_getLast? rfl
    have := Ascii.lt_of_isNameByte (bytes _ last)
    rw [UInt8.toNat_ofNat_of_lt' (by simp only [UInt8.size]; omega)] at this
    omega

/-- All names of the family are such texts. -/
def areNamed {α : Type} (family : List (String × α)) : Bool := family.all (isName ·.1)

/-- The families of properties, and the long names of categories, have such texts for names. -/
theorem areNamed_families :
    areNamed categories = true ∧ areNamed scripts = true ∧ areNamed binaryProperties = true ∧
      areNamed categoryAliases = true := by
  decide +kernel

/-- The names that are in no table are such texts, and so are those of the families. -/
theorem isName_of_mem : ∀ name ∈ ["Any", "ASCII", "General_Category", "gc", "Script", "sc",
    "Script_Extensions", "scx"], isName name = true := by
  decide +kernel

theorem isName_of_lookup {α : Type} {family : List (String × α)} (h : areNamed family = true)
    {name : String} {x : α} (hx : family.lookup name = some x) : isName name = true := by
  obtain ⟨before, after, hfamily, -⟩ := List.lookup_eq_some_iff.mp hx
  exact List.all_eq_true.mp h (name, x) (by simp [hfamily])

theorem isName_of_category? {name : String} {t : Table} (h : category? name = some t) :
    isName name = true := by
  unfold category? at h
  split at h
  · rename_i ht
    exact isName_of_lookup areNamed_families.1 ht
  · obtain ⟨short, hs, -⟩ := Option.bind_eq_some_iff.mp h
    exact isName_of_lookup areNamed_families.2.2.2 hs

theorem isName_of_plain? {name : String} {t : Table} (h : plain? name = some t) :
    isName name = true := by
  unfold plain? at h
  split at h
  · exact isName_of_category? ‹_›
  split at h
  · exact isName_of_lookup areNamed_families.2.1 ‹_›
  split at h
  · rename_i hn
    exact isName_of_mem name (by simp [hn])
  split at h
  · rename_i hn
    exact isName_of_mem name (by simp [hn])
  · exact isName_of_lookup areNamed_families.2.2.1 h

theorem isName_of_qualified? {qualifier value : String} {t : Table}
    (h : qualified? qualifier value = some t) : isName qualifier = true ∧ isName value = true := by
  unfold qualified? at h
  split at h
  · rename_i hq
    refine ⟨?_, isName_of_category? h⟩
    exact isName_of_mem qualifier (by rcases hq with rfl | rfl <;> simp)
  split at h
  · rename_i hq
    refine ⟨?_, isName_of_lookup areNamed_families.2.1 h⟩
    exact isName_of_mem qualifier (by rcases hq with rfl | rfl | rfl | rfl <;> simp)
  · simp at h

theorem forall_of_lookup? {name : String} {t : Table} (h : lookup? name = some t) :
    ∀ c ∈ name.toList, c.toNat < 0x80 ∧ Ascii.isNameByte (Ascii.byte c) = true := by
  unfold lookup? at h
  split at h
  · exact forall_of_isName (isName_of_plain? h)
  · rename_i qualifier sign value hs
    obtain ⟨hq, hv⟩ := isName_of_qualified? h
    have hq := forall_of_isName hq
    have hv := forall_of_isName hv
    rw [String.toList_ofList] at hq hv
    rw [List.span_eq_takeWhile_dropWhile] at hs
    obtain ⟨hl, hr⟩ := Prod.mk.inj hs
    have sign_eq : sign = '=' := by
      have := List.head?_dropWhile_not (· != '=') name.toList
      rw [hr] at this
      simpa using this
    intro c hc
    rw [← List.takeWhile_append_dropWhile (p := (· != '=')) (l := name.toList), hl, hr] at hc
    rcases List.mem_append.mp hc with hc | hc
    · exact hq c hc
    rcases List.mem_cons.mp hc with rfl | hc
    · rw [sign_eq]
      decide
    · exact hv c hc

end Unicode

/-- **The name of a property comes back as the bytes it was read from**, and they are letters,
digits, the low line and the equals sign. -/
theorem Bytes.ofString_toText_of_lookup? {name : Bytes}
    (h : (Unicode.lookup? name.toText).isSome = true) :
    Bytes.ofString name.toText = name ∧ ∀ b ∈ name, Ascii.isNameByte b = true := by
  obtain ⟨t, ht⟩ := Option.isSome_iff_exists.mp h
  have chars := Unicode.forall_of_lookup? ht
  have bytes : name.toText.toList.map Ascii.byte = name := by
    refine Bytes.map_byte_toText fun c hc => ⟨(chars c hc).1, ?_⟩
    rintro rfl
    exact absurd (chars _ hc).2 (by decide)
  constructor
  · have := Bytes.ofString_ofList fun c hc => (chars c hc).1
    rwa [String.ofList_toList, bytes] at this
  · intro b hb
    rw [← bytes] at hb
    obtain ⟨c, hc, rfl⟩ := List.mem_map.mp hb
    exact (chars c hc).2

end Backtrack
