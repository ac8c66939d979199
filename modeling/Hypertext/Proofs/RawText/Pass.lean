import Hypertext.Proofs.RawText.Bytes

/-! # The pass over the bytes

The pass keeps a second place, behind the last `<` of an end tag: what is written stands before it.
So its result is what is written, followed by the text from there on with its end tags broken. -/

namespace Hypertext.Escape

variable {c : Char} {cs : List Char} {name : List UInt8} {i : Nat}

/-! ## One place after the other -/

theorem breakFrom_end {text : String} (h : ¬ i + 2 ≤ (utf8 text).length) (last : Nat)
    (written : String) :
    breakFrom name text i last written =
      (slice? text last (utf8 text).length).map (written ++ ·) := by
  rw [breakFrom, if_neg h]
  cases slice? text last (utf8 text).length <;> rfl

/-- Where no end tag stands the pass goes on by one byte. -/
theorem breakFrom_skip {text : String} (h : endTagAt name (utf8 text) i = false) (last : Nat)
    (written : String) :
    breakFrom name text i last written = breakFrom name text (i + 1) last written := by
  by_cases more : i + 2 ≤ (utf8 text).length
  · rw [breakFrom, if_pos more, if_neg (by rw [h]; exact Bool.false_ne_true)]
  · rw [breakFrom_end more, breakFrom_end (by omega)]

theorem breakFrom_found {text : String} (h : endTagAt name (utf8 text) i = true) (last : Nat)
    {part : String} (cut : slice? text last (i + 1) = some part) (written : String) :
    breakFrom name text i last written =
      breakFrom name text (i + 2 + name.length) (i + 1) (written ++ part ++ "\\") := by
  have long : i + 2 ≤ (utf8 text).length := by
    simp only [endTagAt, Bool.and_eq_true, decide_eq_true_eq] at h
    omega
  rw [breakFrom, if_pos long, if_pos h, cut]
  rfl

/-- Bytes that are not that of `<` are passed over. -/
theorem breakFrom_skip_bytes {text : String} {before between behind : List UInt8}
    (ht : utf8 text = before ++ between ++ behind) (hb : ∀ b ∈ between, b ≠ 60) (last : Nat)
    (written : String) :
    breakFrom name text before.length last written =
      breakFrom name text (before ++ between).length last written := by
  induction between generalizing before with
  | nil => rw [List.append_nil]
  | cons b between ih =>
    obtain ⟨here, rest⟩ := List.forall_mem_cons.mp hb
    have split : utf8 text = before ++ b :: (between ++ behind) := by
      rw [ht, List.append_assoc, List.cons_append]
    have first := not_endTagAt here name before (between ++ behind)
    rw [← split] at first
    rw [List.append_cons] at ht
    have gone := ih ht rest
    rw [← List.append_cons, List.length_append, List.length_singleton] at gone
    rw [breakFrom_skip first, gone]

variable {tag : List Char}

theorem split_behind (done kept : List Char) (c : Char) (cs : List Char) :
    done ++ (kept ++ [c]) ++ cs = done ++ kept ++ c :: cs := by
  rw [← List.append_assoc, ← List.append_cons]

/-- A character at which no end tag begins is passed over. -/
theorem breakFrom_pass (ht : IsTagName tag) (h : ¬ '<' :: '/' :: tag <+: lower (c :: cs))
    (before : List Char) (last : Nat) (written : String) :
    breakFrom (encode tag) (String.ofList (before ++ c :: cs)) (encode before).length last written =
      breakFrom (encode tag) (String.ofList (before ++ c :: cs)) (encode (before ++ [c])).length
        last written := by
  have bytes : utf8 (String.ofList (before ++ c :: cs)) = encode before ++ encode (c :: cs) := by
    rw [utf8_ofList, encode_append]
  rw [encode_append before [c]]
  by_cases ascii : c.val.toNat ≤ 127
  · have free : endTagAt (encode tag) (utf8 (String.ofList (before ++ c :: cs)))
        (encode before).length = false := by
      rw [← Bool.not_eq_true, bytes, ht.endTagAt_iff]
      exact h
    rw [breakFrom_skip free, encode_ascii ascii, List.length_append]
    rfl
  · have single : encode [c] = String.utf8EncodeChar c := List.append_nil _
    have split : utf8 (String.ofList (before ++ c :: cs)) =
        encode before ++ encode [c] ++ encode cs := by
      rw [bytes, encode_cons, single, List.append_assoc]
    have large : ∀ b ∈ encode [c], b ≠ 60 := by
      intro b hb same
      rw [single] at hb
      have beyond := large_of_mem_utf8EncodeChar ascii hb
      rw [same] at beyond
      exact absurd beyond (by decide)
    exact breakFrom_skip_bytes split large last written

/-- At an end tag, the text up to behind its `<` is written, and the pass goes on behind the tag. -/
theorem breakFrom_break (ht : IsTagName tag) (h : '<' :: '/' :: tag <+: lower (c :: cs))
    (done kept : List Char) (written : String) :
    breakFrom (encode tag) (String.ofList (done ++ kept ++ c :: cs)) (encode (done ++ kept)).length
        (encode done).length written =
      breakFrom (encode tag) (String.ofList (done ++ kept ++ c :: cs))
        (encode (done ++ (kept ++ [c]) ++ cs.take (tag.length + 1))).length
        (encode (done ++ (kept ++ [c]))).length (written ++ String.ofList (kept ++ [c]) ++ "\\") := by
  have found : endTagAt (encode tag) (utf8 (String.ofList (done ++ kept ++ c :: cs)))
      (encode (done ++ kept)).length = true := by
    rw [utf8_ofList, encode_append (done ++ kept), ht.endTagAt_iff]
    exact h
  rw [lower_cons, List.cons_prefix_cons] at h
  obtain ⟨first, behind⟩ := h
  have ascii : c.val.toNat ≤ 127 := by
    refine ascii_of_toLower ?_
    rw [← first]
    decide
  have one : (encode (done ++ (kept ++ [c]))).length = (encode (done ++ kept)).length + 1 := by
    rw [← List.append_assoc, encode_append (done ++ kept), encode_ascii ascii, List.length_append]
    rfl
  have cut := slice?_between done (kept ++ [c]) cs
  rw [split_behind, one] at cut
  have more : (encode (cs.take (tag.length + 1))).length = tag.length + 1 :=
    length_encode_of_lower_prefix ht.ascii_slash behind
  have place : (encode (done ++ (kept ++ [c]) ++ cs.take (tag.length + 1))).length =
      (encode (done ++ kept)).length + 2 + (encode tag).length := by
    rw [encode_append, List.length_append, one, more, length_encode_of_ascii ht.ascii]
    omega
  rw [breakFrom_found found _ cut, place, one]

/-- At every place between characters, what is left of the text comes to what it comes to read
character by character, behind what is not written yet. -/
theorem breakFrom_eq (ht : IsTagName tag) (rest done kept : List Char) (written : String) :
    breakFrom (encode tag) (String.ofList (done ++ kept ++ rest)) (encode (done ++ kept)).length
        (encode done).length written =
      some (written ++ String.ofList (kept ++ breakEndTags ('<' :: '/' :: tag) rest)) := by
  induction rest using breakEndTags.induct ('<' :: '/' :: tag) generalizing done kept written with
  | case1 =>
    have size : utf8 (String.ofList (done ++ kept ++ [])) = encode (done ++ kept) := by
      rw [utf8_ofList, List.append_nil]
    have cut := slice?_between done kept []
    rw [breakFrom_end (by rw [size]; omega), size, cut, breakEndTags, List.append_nil]
    rfl
  | case2 c cs h ih =>
    have tail : ('<' :: '/' :: tag).length - 1 = tag.length + 1 := rfl
    have joined : done ++ (kept ++ [c]) ++ cs.take (tag.length + 1) ++ cs.drop (tag.length + 1) =
        done ++ kept ++ c :: cs := by
      rw [List.append_assoc, List.take_append_drop, split_behind]
    -- The backslash is written, so what is left of the end tag is all that is not written yet.
    have behind := ih (done ++ (kept ++ [c])) (cs.take (tag.length + 1))
      (written ++ String.ofList (kept ++ [c]) ++ "\\")
    rw [tail, joined] at behind
    rw [breakFrom_break ht (startsWithEndTag_iff.mp h), behind, breakEndTags, if_pos h, tail]
    simp [← String.toList_inj]
  | case3 c cs h ih =>
    have behind := ih done (kept ++ [c]) written
    rw [split_behind] at behind
    rw [breakFrom_pass ht (mt startsWithEndTag_iff.mpr h), List.append_assoc done kept [c], behind,
      breakEndTags, if_neg h, List.append_assoc, List.singleton_append]

/-! ## Every text -/

/-- The end tag stands in the text at the place, in any letter case. -/
def EndTagBegins (endTag text : List Char) (i : Nat) : Prop :=
  endTag <+: lower (text.drop i)

instance (endTag text : List Char) (i : Nat) : Decidable (EndTagBegins endTag text i) :=
  inferInstanceAs (Decidable (endTag <+: lower (text.drop i)))

/-- A character of the text is followed by a backslash just if an end tag stands at its place. -/
def writtenAt (endTag text : List Char) (p : Char × Nat) : List Char :=
  if EndTagBegins endTag text p.2 then [p.1, '\\'] else [p.1]

def withBackslashes (endTag text : List Char) : List Char :=
  text.zipIdx.flatMap (writtenAt endTag text)

theorem flatMap_writtenAt {rest : List Char} (ho : '<' ∉ rest) (before cs : List Char) :
    (cs.zipIdx before.length).flatMap (writtenAt ('<' :: rest) (before ++ cs)) =
      breakEndTags ('<' :: rest) cs := by
  induction cs generalizing before with
  | nil => rw [breakEndTags, List.zipIdx_nil, List.flatMap_nil]
  | cons c cs ih =>
    have here : EndTagBegins ('<' :: rest) (before ++ c :: cs) before.length ↔
        startsWithEndTag ('<' :: rest) (c :: cs) = true := by
      rw [EndTagBegins, startsWithEndTag_iff, List.drop_left]
    have behind := ih (before ++ [c])
    rw [List.length_append, List.length_singleton, ← List.append_cons] at behind
    rw [List.zipIdx_cons, List.flatMap_cons, behind, breakEndTags_cons ho, writtenAt]
    simp only [here]
    split <;> rfl

theorem withBackslashes_eq {endTag : List Char} (he : IsEndTag endTag) (text : List Char) :
    withBackslashes endTag text = breakEndTags endTag text := by
  obtain ⟨rest, rfl, _, ho, _⟩ := he.shape
  exact flatMap_writtenAt ho [] text

/-- Where no end tag stands, nothing changes. -/
theorem breakEndTags_of_not_infix {endTag text : List Char}
    (h : ¬ endTag <:+: lower text) : breakEndTags endTag text = text := by
  induction text with
  | nil => rw [breakEndTags]
  | cons c cs ih =>
    rw [lower_cons, List.infix_cons_iff, not_or, ← lower_cons] at h
    obtain ⟨here, behind⟩ := h
    rw [breakEndTags, if_neg (mt startsWithEndTag_iff.mp here), ih behind]

/-- One pass over the bytes, with the name behind `</` in the end tag, is what breaks end tags. -/
structure PassEscapes (name : String) (escape : String → String) : Prop where
  /-- The pass never cuts a text inside a character. -/
  bytes : ∀ text, breakInBytes name text = some (escape text)
  /-- Each end tag gets a backslash behind its `<`, and nothing else changes. -/
  places : ∀ text, (escape text).toList = withBackslashes ('<' :: '/' :: name.toList) text.toList
  unbroken : ∀ text i, ¬ EndTagBegins ('<' :: '/' :: name.toList) (escape text).toList i
  again : ∀ text, escape (escape text) = escape text

theorem IsTagName.passEscapes {name : String} (ht : IsTagName name.toList)
    (he : IsEndTag ('<' :: '/' :: name.toList)) :
    PassEscapes name fun text =>
      String.ofList (breakEndTags ('<' :: '/' :: name.toList) text.toList) where
  bytes text := by
    have whole := breakFrom_eq ht text.toList [] [] ""
    rw [List.nil_append, List.nil_append, List.nil_append, String.ofList_toList,
      String.empty_append] at whole
    exact whole
  places text := by
    rw [String.toList_ofList, withBackslashes_eq he]
  unbroken text i h := by
    rw [String.toList_ofList] at h
    refine not_infix_breakEndTags he text.toList (h.isInfix.trans ?_)
    rw [lower, List.map_drop]
    exact (List.drop_suffix _ _).isInfix
  again text := by
    rw [String.toList_ofList, breakEndTags_of_not_infix (not_infix_breakEndTags he _)]

theorem isTagName_script : IsTagName "script>".toList where
  ascii := by simp
  small := by decide

theorem isTagName_style : IsTagName "style>".toList where
  ascii := by simp
  small := by decide

/-- **One pass over the bytes breaks every end tag.** In the body of each of the two elements, the
pass finds all end tags of the element, in any letter case, cuts no character, and puts one backslash
into each. What it makes has no end tag in it, so it stays as it is when it is escaped again. -/
theorem escapes_in_one_pass :
    PassEscapes "script>" escapeScript ∧ PassEscapes "style>" escapeStyle := by
  constructor
  · exact isTagName_script.passEscapes isEndTag_script
  · exact isTagName_style.passEscapes isEndTag_style

example : escapeScript "ä</SCRIPT></Script></script" = "ä<\\/SCRIPT><\\/Script></script" := by
  decide +kernel

end Hypertext.Escape
