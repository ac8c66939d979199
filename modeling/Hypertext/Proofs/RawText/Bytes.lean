import Hypertext.Escape.RawBytes
import Hypertext.Proofs.RawText.Breaking

/-! # End tags in bytes

The bytes of characters beyond ASCII are all larger than those of ASCII, so a pass over bytes finds
an end tag where the text has one and nowhere else. It cuts the text in front of ASCII characters
only, so it never cuts a character in two. -/

namespace Hypertext.Escape

variable {c : Char} {cs w : List Char} {name : List UInt8}

/-! ## Bytes of characters -/

/-- The UTF-8 bytes of the characters. -/
def encode (cs : List Char) : List UInt8 :=
  cs.flatMap String.utf8EncodeChar

theorem encode_cons (c : Char) (cs : List Char) :
    encode (c :: cs) = String.utf8EncodeChar c ++ encode cs :=
  List.flatMap_cons

theorem encode_append (cs ds : List Char) : encode (cs ++ ds) = encode cs ++ encode ds :=
  List.flatMap_append

theorem utf8_ofList (cs : List Char) : utf8 (String.ofList cs) = encode cs := by
  rw [utf8, String.toList_ofList]
  rfl

/-- An ASCII character is one byte. -/
theorem encode_ascii (hc : c.val.toNat ≤ 127) (cs : List Char) :
    encode (c :: cs) = UInt8.ofNat c.val.toNat :: encode cs := by
  rw [encode_cons, String.utf8EncodeChar, if_pos hc]
  rfl

/-- The bytes of any other character are beyond ASCII. -/
theorem large_of_mem_utf8EncodeChar (hc : ¬ c.val.toNat ≤ 127) {b : UInt8}
    (hb : b ∈ String.utf8EncodeChar c) : 128 ≤ b.toNat := by
  have large : ∀ n : Nat, 128 ≤ n → n < 256 → 128 ≤ (UInt8.ofNat n).toNat := by
    intro n h lt
    rw [UInt8.toNat_ofNat_of_lt' lt]
    exact h
  simp only [String.utf8EncodeChar, if_neg hc] at hb
  split at hb
  · simp only [List.mem_cons, List.not_mem_nil, or_false] at hb
    obtain rfl | rfl := hb <;> exact large _ (by omega) (by omega)
  · split at hb
    · simp only [List.mem_cons, List.not_mem_nil, or_false] at hb
      obtain rfl | rfl | rfl := hb <;> exact large _ (by omega) (by omega)
    · simp only [List.mem_cons, List.not_mem_nil, or_false] at hb
      obtain rfl | rfl | rfl | rfl := hb <;> exact large _ (by omega) (by omega)

/-! ## Letter case -/

theorem toNat_lowerByte (b : UInt8) :
    (lowerByte b).toNat = if 65 ≤ b.toNat ∧ b.toNat ≤ 90 then b.toNat + 32 else b.toNat := by
  unfold lowerByte
  simp only [UInt8.le_iff_toNat_le]
  split
  · rename_i h
    have bounds : 65 ≤ b.toNat ∧ b.toNat ≤ 90 := h
    have step : (32 : UInt8).toNat = 32 := rfl
    rw [if_pos bounds, UInt8.toNat_add, step]
    omega
  · rename_i h
    exact (if_neg h).symm

theorem toNat_toLower (c : Char) :
    c.toLower.val.toNat =
      if 65 ≤ c.val.toNat ∧ c.val.toNat ≤ 90 then c.val.toNat + 32 else c.val.toNat := by
  unfold Char.toLower
  split
  · rename_i h
    rw [ge_iff_le, UInt32.le_iff_toNat_le, UInt32.le_iff_toNat_le] at h
    have bounds : 65 ≤ c.val.toNat ∧ c.val.toNat ≤ 90 := h
    have step : ('a'.val - 'A'.val).toNat = 32 := rfl
    show (c.val + ('a'.val - 'A'.val)).toNat = _
    rw [if_pos bounds, UInt32.toNat_add, step]
    omega
  · rename_i h
    rw [ge_iff_le, UInt32.le_iff_toNat_le, UInt32.le_iff_toNat_le] at h
    exact (if_neg h).symm

/-- The bytes of an ASCII text stand in front, whatever their case, just if the text does. -/
theorem encode_prefix_iff (hw : ∀ x ∈ w, x.val.toNat ≤ 127) :
    encode w <+: (encode cs).map lowerByte ↔ w <+: lower cs := by
  induction w generalizing cs with
  | nil => exact iff_of_true List.nil_prefix List.nil_prefix
  | cons x w ih =>
    obtain ⟨hx, hw⟩ := List.forall_mem_cons.mp hw
    have small : (UInt8.ofNat x.val.toNat).toNat = x.val.toNat :=
      UInt8.toNat_ofNat_of_lt' (Nat.lt_of_le_of_lt hx (by decide))
    rw [encode_ascii hx]
    cases cs with
    | nil => simp [encode]
    | cons c cs =>
      rw [lower_cons, List.cons_prefix_cons]
      by_cases hc : c.val.toNat ≤ 127
      · have byte : (UInt8.ofNat c.val.toNat).toNat = c.val.toNat := by
          rw [UInt8.toNat_ofNat']
          omega
        have first : UInt8.ofNat x.val.toNat = lowerByte (UInt8.ofNat c.val.toNat) ↔
            x = c.toLower := by
          rw [← UInt8.toNat_inj, toNat_lowerByte, byte, small, ← toNat_toLower, UInt32.toNat_inj]
          exact Char.ext_iff.symm
        rw [encode_ascii hc, List.map_cons, List.cons_prefix_cons, first, ih hw]
      · -- Neither the first byte nor the character is ASCII.
        have letters : x ≠ c.toLower := by
          rintro rfl
          rw [toNat_toLower] at hx
          split at hx <;> omega
        refine iff_of_false ?_ fun h => letters h.1
        obtain ⟨b, more, split⟩ := List.exists_cons_of_ne_nil (@String.utf8EncodeChar_ne_nil c)
        have large := large_of_mem_utf8EncodeChar hc (split ▸ List.mem_cons_self)
        rw [encode_cons, split, List.cons_append, List.map_cons, List.cons_prefix_cons,
          ← UInt8.toNat_inj, small, toNat_lowerByte]
        rintro ⟨same, _⟩
        split at same <;> omega

/-! ## An end tag at a place -/

/-- What stands behind `</` in an end tag: small letters, and other ASCII characters. -/
structure IsTagName (name : List Char) : Prop where
  ascii : ∀ x ∈ name, x.val.toNat ≤ 127
  small : lower name = name

theorem length_encode_of_ascii (hw : ∀ x ∈ w, x.val.toNat ≤ 127) :
    (encode w).length = w.length := by
  induction w with
  | nil => rfl
  | cons x w ih =>
    obtain ⟨hx, hw⟩ := List.forall_mem_cons.mp hw
    rw [encode_ascii hx, List.length_cons, List.length_cons, ih hw]

/-- A character is ASCII if it is so when it is made small. -/
theorem ascii_of_toLower (h : c.toLower.val.toNat ≤ 127) : c.val.toNat ≤ 127 := by
  rw [toNat_toLower] at h
  split at h <;> omega

theorem ascii_of_lower (h : ∀ x ∈ lower cs, x.val.toNat ≤ 127) : ∀ x ∈ cs, x.val.toNat ≤ 127 :=
  fun _ hx => ascii_of_toLower (h _ (List.mem_map_of_mem hx))

/-- What is no letter is made of nothing else. -/
theorem eq_lowerByte_iff {a b : UInt8} (hb : b.toNat < 65) : b = lowerByte a ↔ a = b := by
  rw [← UInt8.toNat_inj, ← UInt8.toNat_inj, toNat_lowerByte]
  split <;> omega

theorem utf8_open : utf8 "</" = [60, 47] := by decide

theorem extract_append (before bytes : List UInt8) (m n : Nat) :
    (before ++ bytes).extract (before.length + m) (before.length + n) = bytes.extract m n := by
  rw [List.extract, List.extract, List.drop_length_add_append, Nat.add_sub_add_left]

/-- Places are looked at for an end tag as their bytes are, made small. -/
theorem endTagAt_iff_front (hn : name.map lowerByte = name) (before bytes : List UInt8) :
    endTagAt name (before ++ bytes) before.length = true ↔
      60 :: 47 :: name <+: bytes.map lowerByte := by
  have two := extract_append before bytes 0 2
  have more := extract_append before bytes 2 (2 + name.length)
  rw [Nat.add_zero] at two
  rw [← Nat.add_assoc] at more
  rw [endTagAt, two, more, utf8_open, sameLetters, hn]
  simp only [Bool.and_eq_true, beq_iff_eq, decide_eq_true_eq, List.length_append]
  match bytes with
  | [] => simp
  | [a] => simp
  | a :: b :: bytes =>
    have rest : (a :: b :: bytes).extract 2 (2 + name.length) = bytes.take name.length := by
      rw [List.extract, Nat.add_sub_cancel_left]
      rfl
    have front : (a :: b :: bytes).extract 0 2 = [a, b] := rfl
    rw [front, rest, List.map_cons, List.map_cons, List.cons_prefix_cons, List.cons_prefix_cons,
      eq_lowerByte_iff (by decide), eq_lowerByte_iff (by decide)]
    constructor
    · rintro ⟨⟨here, _⟩, same⟩
      obtain ⟨first, second⟩ := List.cons.inj here
      refine ⟨first, (List.cons.inj second).1, ?_⟩
      rw [← same, List.map_take]
      exact List.take_prefix _ _
    · rintro ⟨rfl, rfl, same⟩
      have long := same.length_le
      rw [List.length_map] at long
      refine ⟨⟨rfl, ?_⟩, ?_⟩
      · rw [List.length_cons, List.length_cons]
        omega
      · rw [List.map_take]
        exact (List.prefix_iff_eq_take.mp same).symm

/-- What reads as an ASCII text when it is made small has one byte for each of its characters. -/
theorem length_encode_of_lower_prefix (hw : ∀ x ∈ w, x.val.toNat ≤ 127) (h : w <+: lower cs) :
    (encode (cs.take w.length)).length = w.length := by
  have front : lower (cs.take w.length) = w := by
    rw [lower, List.map_take]
    exact (List.prefix_iff_eq_take.mp h).symm
  have ascii : ∀ x ∈ cs.take w.length, x.val.toNat ≤ 127 := by
    refine ascii_of_lower ?_
    rwa [front]
  rw [length_encode_of_ascii ascii, ← List.length_map, ← lower, front]

namespace IsTagName

variable {tag : List Char}

theorem ascii_slash (h : IsTagName tag) : ∀ x ∈ '/' :: tag, x.val.toNat ≤ 127 :=
  List.forall_mem_cons.mpr ⟨by decide, h.ascii⟩

theorem lowerByte_encode (h : IsTagName tag) : (encode tag).map lowerByte = encode tag := by
  have front : encode tag <+: (encode tag).map lowerByte := by
    rw [encode_prefix_iff h.ascii, h.small]
  exact (front.eq_of_length (List.length_map _).symm).symm

theorem endTagAt_iff (h : IsTagName tag) (before : List UInt8) (cs : List Char) :
    endTagAt (encode tag) (before ++ encode cs) before.length = true ↔
      '<' :: '/' :: tag <+: lower cs := by
  have ascii : ∀ x ∈ '<' :: '/' :: tag, x.val.toNat ≤ 127 :=
    List.forall_mem_cons.mpr ⟨by decide, h.ascii_slash⟩
  have bytes : encode ('<' :: '/' :: tag) = 60 :: 47 :: encode tag := by
    rw [encode_ascii (by decide), encode_ascii (by decide)]
    rfl
  rw [endTagAt_iff_front h.lowerByte_encode, ← encode_prefix_iff ascii, bytes]

end IsTagName

/-- No end tag stands where the byte is not that of `<`. -/
theorem not_endTagAt {b : UInt8} (hb : b ≠ 60) (name before bytes : List UInt8) :
    endTagAt name (before ++ b :: bytes) before.length = false := by
  have two := extract_append before (b :: bytes) 0 2
  have first : ((b :: bytes).extract 0 2 == utf8 "</") = false := by
    rw [utf8_open, beq_eq_false_iff_ne]
    exact fun h => hb (List.cons.inj h).1
  rw [Nat.add_zero] at two
  rw [endTagAt, two, first, Bool.false_and, Bool.false_and]

/-! ## Cuts -/

/-- Between characters, the text can be cut. -/
theorem slice?_between (xs ys zs : List Char) :
    slice? (String.ofList (xs ++ ys ++ zs)) (encode xs).length (encode (xs ++ ys)).length =
      some (String.ofList ys) := by
  have size : ∀ cs : List Char, (encode cs).length = (String.ofList cs).toByteArray.size := by
    intro cs
    rw [String.toByteArray_ofList, List.utf8Encode, List.size_toByteArray]
    rfl
  have start : String.Pos.Raw.IsValid (String.ofList (xs ++ ys ++ zs)) ⟨(encode xs).length⟩ := by
    rw [String.Pos.Raw.isValid_iff_exists_append]
    refine ⟨String.ofList xs, String.ofList (ys ++ zs), ?_, ?_⟩
    · rw [← String.ofList_append, List.append_assoc]
    · rw [size]
      rfl
  have stop : String.Pos.Raw.IsValid (String.ofList (xs ++ ys ++ zs))
      ⟨(encode (xs ++ ys)).length⟩ := by
    rw [String.Pos.Raw.isValid_iff_exists_append]
    refine ⟨String.ofList (xs ++ ys), String.ofList zs, ?_, ?_⟩
    · rw [← String.ofList_append]
    · rw [size]
      rfl
  have between : (String.ofList (xs ++ ys ++ zs)).toByteArray.extract (encode xs).length
      (encode (xs ++ ys)).length = (String.ofList ys).toByteArray := by
    rw [encode_append, List.length_append, size, size, String.ofList_append, String.ofList_append,
      String.toByteArray_append, String.toByteArray_append, ByteArray.append_assoc]
    have behind := @ByteArray.extract_append_size_add (String.ofList xs).toByteArray
      ((String.ofList ys).toByteArray ++ (String.ofList zs).toByteArray) 0
      (String.ofList ys).toByteArray.size
    rw [Nat.add_zero] at behind
    rw [behind, ByteArray.extract_append_eq_left rfl]
  have order : (encode xs).length ≤ (encode (xs ++ ys)).length := by
    rw [encode_append, List.length_append]
    omega
  rw [slice?, if_pos ⟨order, start, stop⟩, between, String.fromUTF8?,
    dif_pos (String.ofList ys).isValidUTF8]
  rfl

end Hypertext.Escape
