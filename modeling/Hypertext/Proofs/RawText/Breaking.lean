import Hypertext.Escape.RawText
import Mathlib.Data.List.Infix
import Mathlib.Data.UInt

/-! # Broken end tags

No end tag is left in a text in which all of them are broken. Texts are broken one by one, though,
so when they are joined, an end tag is left if it began in one text and ended in a later one. -/

namespace Hypertext.Escape

def lower (text : List Char) : List Char :=
  text.map Char.toLower

@[simp] theorem lower_nil : lower [] = [] := rfl

@[simp] theorem lower_cons (c : Char) (cs : List Char) : lower (c :: cs) = c.toLower :: lower cs :=
  rfl

/-- Only a letter is made small, and none is made a `<`. -/
theorem toLower_eq_open_iff {c : Char} : c.toLower = '<' ↔ c = '<' := by
  unfold Char.toLower
  split
  · rename_i h
    constructor
    · intro hc
      have below : c.val = '<'.val - ('a'.val - 'A'.val) :=
        eq_sub_of_add_eq (congrArg Char.val hc)
      rw [below] at h
      exact absurd h.1 (by decide)
    · rintro rfl
      exact absurd h.1 (by decide)
  · rfl

theorem startsWithEndTag_iff {endTag text : List Char} :
    startsWithEndTag endTag text = true ↔ endTag <+: lower text := by
  rw [startsWithEndTag, List.isPrefixOf_iff_prefix, List.map_take, List.prefix_take_iff]
  exact and_iff_left (Nat.le_refl _)

/-- An end tag: a `<` and something behind it, without another `<` and without a backslash. -/
structure IsEndTag (endTag : List Char) : Prop where
  shape : ∃ rest, endTag = '<' :: rest ∧ rest ≠ [] ∧ '<' ∉ rest ∧ '\\' ∉ rest

theorem isEndTag_script : IsEndTag scriptEndTag :=
  ⟨_, rfl, by decide, by decide, by decide⟩

theorem isEndTag_style : IsEndTag styleEndTag :=
  ⟨_, rfl, by decide, by decide, by decide⟩

/-- An end tag begins in the text and ends in what comes behind it. -/
def Crosses (endTag text behind : List Char) : Prop :=
  ∃ s, s <:+ text ∧ s ≠ [] ∧ ¬ endTag <+: lower s ∧ endTag <+: lower (s ++ behind)

theorem not_crosses_nil (endTag behind : List Char) : ¬ Crosses endTag [] behind := by
  rintro ⟨s, hs, hn, _⟩
  exact hn (List.suffix_nil.mp hs)

theorem crosses_cons {endTag behind cs : List Char} {c : Char} :
    Crosses endTag (c :: cs) behind ↔
      (¬ endTag <+: lower (c :: cs) ∧ endTag <+: lower (c :: cs ++ behind)) ∨
        Crosses endTag cs behind := by
  constructor
  · rintro ⟨s, hs, hn, hp⟩
    rcases List.suffix_cons_iff.mp hs with rfl | hs
    · exact .inl hp
    · exact .inr ⟨s, hs, hn, hp⟩
  · rintro (hp | ⟨s, hs, hn, hp⟩)
    · exact ⟨_, List.suffix_refl _, List.cons_ne_nil _ _, hp⟩
    · exact ⟨s, hs.trans (List.suffix_cons c cs), hn, hp⟩

section

variable {rest : List Char}

/-! ## One position after the other -/

theorem not_startsWithEndTag {c : Char} (h : c ≠ '<') (cs : List Char) :
    startsWithEndTag ('<' :: rest) (c :: cs) = false := by
  rw [← Bool.not_eq_true, startsWithEndTag_iff, lower_cons, List.cons_prefix_cons]
  exact fun hp => h (toLower_eq_open_iff.mp hp.1.symm)

theorem breakEndTags_of_not_mem {xs : List Char} (h : '<' ∉ xs) (ys : List Char) :
    breakEndTags ('<' :: rest) (xs ++ ys) = xs ++ breakEndTags ('<' :: rest) ys := by
  induction xs with
  | nil => rfl
  | cons c cs ih =>
    rw [List.mem_cons, not_or] at h
    obtain ⟨hc, hcs⟩ := h
    rw [List.cons_append, breakEndTags, if_neg, ih hcs, List.cons_append]
    rw [not_startsWithEndTag (Ne.symm hc)]
    exact Bool.false_ne_true

/-- An end tag has no other one inside, so it makes no difference that the text goes on behind it.
-/
theorem breakEndTags_cons (ho : '<' ∉ rest) (c : Char) (cs : List Char) :
    breakEndTags ('<' :: rest) (c :: cs) =
      if startsWithEndTag ('<' :: rest) (c :: cs) then c :: '\\' :: breakEndTags ('<' :: rest) cs
      else c :: breakEndTags ('<' :: rest) cs := by
  rw [breakEndTags]
  split
  · rename_i h
    have inside : lower (cs.take rest.length) = rest := by
      rw [startsWithEndTag_iff, lower_cons, List.cons_prefix_cons] at h
      rw [lower, List.map_take]
      exact (List.prefix_iff_eq_take.mp h.2).symm
    have free : '<' ∉ cs.take rest.length := by
      intro hm
      refine ho ?_
      rw [← inside]
      exact List.mem_map.mpr ⟨'<', hm, rfl⟩
    have go_on : breakEndTags ('<' :: rest) (cs.take rest.length ++ cs.drop rest.length) = _ :=
      breakEndTags_of_not_mem free (cs.drop rest.length)
    rw [List.take_append_drop] at go_on
    rw [go_on]
    rfl
  · rfl

/-! ## What is left of an end tag -/

/-- Nothing is put in where no end tag begins. -/
theorem prefix_break_append (ho : '<' ∉ rest) {A B : List Char}
    (hAB : ∀ r, '<' ∉ r → (r <+: lower A ↔ r <+: lower B)) (t : List Char) {r : List Char}
    (hr : '<' ∉ r) :
    r <+: lower (breakEndTags ('<' :: rest) t ++ A) ↔ r <+: lower (t ++ B) := by
  induction t generalizing r with
  | nil =>
    rw [breakEndTags]
    exact hAB r hr
  | cons c cs ih =>
    cases r with
    | nil => exact iff_of_true List.nil_prefix List.nil_prefix
    | cons x r =>
      rw [List.mem_cons, not_or] at hr
      obtain ⟨hx, hr⟩ := hr
      rw [breakEndTags_cons ho]
      split
      · rename_i h
        rw [startsWithEndTag_iff, lower_cons, List.cons_prefix_cons] at h
        simp only [List.cons_append, lower_cons, List.cons_prefix_cons, ← h.1]
        exact iff_of_false (fun hp => hx hp.1.symm) (fun hp => hx hp.1.symm)
      · simp only [List.cons_append, lower_cons, List.cons_prefix_cons, ih hr]

/-- The backslash stands where the end tag would go on. -/
theorem not_prefix_backslash (hne : rest ≠ []) (hb : '\\' ∉ rest) (c : Char) (cs : List Char) :
    ¬ '<' :: rest <+: lower (c :: '\\' :: cs) := by
  intro hp
  obtain ⟨d, ds, rfl⟩ := List.exists_cons_of_ne_nil hne
  simp only [lower_cons, List.cons_prefix_cons] at hp
  exact hb (hp.2.1 ▸ List.mem_cons_self)

/-- Behind a broken text, an end tag begins in the text only if it does not end there. -/
theorem infix_break_append (hne : rest ≠ []) (ho : '<' ∉ rest) (hb : '\\' ∉ rest)
    {A B : List Char} (hAB : ∀ r, '<' ∉ r → (r <+: lower A ↔ r <+: lower B)) (t : List Char) :
    '<' :: rest <:+: lower (breakEndTags ('<' :: rest) t ++ A) ↔
      Crosses ('<' :: rest) t B ∨ '<' :: rest <:+: lower A := by
  induction t with
  | nil =>
    rw [breakEndTags, List.nil_append]
    exact (or_iff_right (not_crosses_nil _ B)).symm
  | cons c cs ih =>
    rw [crosses_cons, or_assoc, ← ih, breakEndTags_cons ho]
    split
    · rename_i h
      rw [startsWithEndTag_iff] at h
      have behind : ¬ '<' :: rest <+: lower ('\\' :: (breakEndTags ('<' :: rest) cs ++ A)) := by
        rw [lower_cons, List.cons_prefix_cons]
        exact fun hp => absurd hp.1 (by decide)
      rw [List.cons_append, List.cons_append, lower_cons, List.infix_cons_iff, ← lower_cons,
        or_iff_right (not_prefix_backslash hne hb c _), lower_cons, List.infix_cons_iff,
        ← lower_cons, or_iff_right behind]
      exact (or_iff_right fun hp => hp.1 h).symm
    · rename_i h
      rw [startsWithEndTag_iff] at h
      have first : '<' :: rest <+: lower (c :: breakEndTags ('<' :: rest) cs ++ A) ↔
          '<' :: rest <+: lower (c :: cs ++ B) := by
        simp only [List.cons_append, lower_cons, List.cons_prefix_cons,
          prefix_break_append ho hAB cs ho]
      rw [and_iff_right h, ← first, List.cons_append, lower_cons, List.infix_cons_iff]

end

/-! ## Joined texts -/

/-- The texts, with the end tags broken in each, one behind the other. -/
def broken (endTag : List Char) (texts : List (List Char)) : List Char :=
  texts.flatMap (breakEndTags endTag)

/-- An end tag of the joined texts begins in one text and ends in a later one. -/
def Straddles (endTag : List Char) (texts : List (List Char)) : Prop :=
  ∃ before text after, texts = before ++ text :: after ∧ Crosses endTag text after.flatten

theorem straddles_cons {endTag t : List Char} {texts : List (List Char)} :
    Straddles endTag (t :: texts) ↔
      Crosses endTag t texts.flatten ∨ Straddles endTag texts := by
  constructor
  · rintro ⟨before, text, after, heq, hs⟩
    cases before with
    | nil =>
      cases heq
      exact .inl hs
    | cons b before =>
      cases heq
      exact .inr ⟨before, text, after, rfl, hs⟩
  · rintro (hs | ⟨before, text, after, rfl, hs⟩)
    · exact ⟨[], t, texts, rfl, hs⟩
    · exact ⟨t :: before, text, after, rfl, hs⟩

theorem not_straddles_nil (endTag : List Char) : ¬ Straddles endTag [] := by
  rintro ⟨before, text, after, heq, _⟩
  exact List.append_ne_nil_of_right_ne_nil _ (List.cons_ne_nil _ _) heq.symm

theorem prefix_broken {rest : List Char} (ho : '<' ∉ rest) (texts : List (List Char))
    {r : List Char} (hr : '<' ∉ r) :
    r <+: lower (broken ('<' :: rest) texts) ↔ r <+: lower texts.flatten := by
  induction texts generalizing r with
  | nil => rfl
  | cons t texts ih => exact prefix_break_append ho (fun r hr => ih hr) t hr

/-- An end tag is left in the joined texts just if it began in one text and ended in a later one. -/
theorem infix_broken_iff {endTag : List Char} (he : IsEndTag endTag) (texts : List (List Char)) :
    endTag <:+: lower (broken endTag texts) ↔ Straddles endTag texts := by
  obtain ⟨rest, rfl, hne, ho, hb⟩ := he.shape
  induction texts with
  | nil =>
    refine iff_of_false ?_ (not_straddles_nil _)
    exact fun h => List.cons_ne_nil _ _ (List.infix_nil.mp h)
  | cons t texts ih =>
    rw [straddles_cons, ← ih]
    exact infix_break_append hne ho hb (fun r hr => prefix_broken ho texts hr) t

/-- One text cannot straddle. -/
theorem not_straddles_singleton (endTag t : List Char) : ¬ Straddles endTag [t] := by
  rw [straddles_cons]
  rintro (⟨s, _, _, hn, hp⟩ | hs)
  · rw [List.flatten_nil, List.append_nil] at hp
    exact hn hp
  · exact not_straddles_nil endTag hs

/-- In one text, every end tag is broken. -/
theorem not_infix_breakEndTags {endTag : List Char} (he : IsEndTag endTag) (t : List Char) :
    ¬ endTag <:+: lower (breakEndTags endTag t) := by
  have alone : broken endTag [t] = breakEndTags endTag t := List.append_nil _
  rw [← alone, infix_broken_iff he]
  exact not_straddles_singleton endTag t

end Hypertext.Escape
