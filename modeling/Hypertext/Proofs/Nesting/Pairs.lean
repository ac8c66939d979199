import Hypertext.Proofs.Nesting.Scan
import Mathlib.Logic.ExistsUnique

/-! # Pairs of tags

In pieces that leave nothing open, every end tag belongs to one start tag: the last one before it
that is closed and has nothing left open in between. -/

namespace Hypertext.Piece

/-- The start tags that are closed and the end tags are paired: each of them has one partner, of the
same name, and pairs do not cross. -/
structure Paired (ps : List Piece) (pair : Nat → Nat → Prop) : Prop where
  /-- A pair is of a start tag and an end tag of its name behind it. -/
  names : ∀ {i j}, pair i j → i < j ∧
    ∃ tag, ps[i]? = some (.startTag tag) ∧ ps[j]? = some (.endTag tag.name)
  start_unique : ∀ {i k j}, pair i j → pair k j → k = i
  end_unique : ∀ {i j l}, pair i j → pair i l → l = j
  nested : ∀ {i j k l}, pair i j → pair k l → i < k → k < j → l < j
  /-- Every end tag belongs to a start tag. -/
  ends : ∀ {j name}, ps[j]? = some (.endTag name) → ∃ i, pair i j
  starts : ∀ {i tag}, ps[i]? = some (.startTag tag) → ((∃ j, pair i j) ↔ tag.isClosed = true)

/-- The pieces between two places. -/
def between (ps : List Piece) (i j : Nat) : List Piece :=
  (ps.take j).drop (i + 1)

/-- The start tag and the end tag are of one element. -/
structure Partners (ps : List Piece) (i j : Nat) : Prop where
  lt : i < j
  tags : ∃ tag, ps[i]? = some (.startTag tag) ∧ ps[j]? = some (.endTag tag.name) ∧
    tag.isClosed = true
  neutral : Neutral (between ps i j)

variable {ps : List Piece} {i j k l : Nat}

theorem between_split {p : Piece} (hp : ps[k]? = some p) (hi : i < k) (hj : k < j) :
    between ps i j = between ps i k ++ p :: between ps k j := by
  have hk : (ps.take j)[k]? = some p := by rw [List.getElem?_take_of_lt hj, hp]
  obtain ⟨hlen, hk⟩ := List.getElem?_eq_some_iff.mp hk
  have split : ps.take j = ps.take k ++ p :: between ps k j :=
    calc ps.take j
        = (ps.take j).take k ++ (ps.take j).drop k := (List.take_append_drop k _).symm
      _ = ps.take k ++ p :: between ps k j := by
        rw [List.take_take, Nat.min_eq_left (Nat.le_of_lt hj), List.drop_eq_getElem_cons hlen, hk]
        rfl
  have hk : i + 1 ≤ (ps.take k).length := by
    rw [List.length_take] at hlen ⊢
    omega
  rw [between, split, List.drop_append_of_le_length hk]
  rfl

/-! ## Partners are unique and do not cross -/

/-- The pieces from a start tag up to a place inside its element close nothing from before. -/
theorem Partners.scan_inside (h : Partners ps k l) (hkj : k < j) (hjl : j ≤ l) :
    ∃ names, scan (between ps k j) [] = some names := by
  rcases Nat.eq_or_lt_of_le hjl with rfl | hlt
  · exact ⟨[], h.neutral⟩
  · obtain ⟨_, _, he, _⟩ := h.tags
    have hlen : j < ps.length := Nat.lt_trans hlt (List.getElem?_eq_some_iff.mp he).1
    have hn := h.neutral
    rw [Neutral, between_split (List.getElem?_eq_getElem hlen) hkj hlt, scan_append] at hn
    obtain ⟨names, hs, _⟩ := Option.bind_eq_some_iff.mp hn
    exact ⟨names, hs⟩

/-- An element that begins inside of another one ends there. -/
theorem Partners.nested (h : Partners ps i j) (h' : Partners ps k l) (hik : i < k) (hkj : k < j) :
    l < j := by
  refine Nat.lt_of_not_le ?_
  intro hjl
  obtain ⟨tag, hs, _, hc⟩ := h'.tags
  obtain ⟨inner, hinner⟩ := h'.scan_inside hkj hjl
  have hn := h.neutral
  rw [Neutral, between_split hs hik hkj, scan_append] at hn
  obtain ⟨outer, _, hn⟩ := Option.bind_eq_some_iff.mp hn
  -- the element that begins at `k` is still open at `j`
  have still := scan_frame hinner (tag.name :: outer)
  rw [List.nil_append] at still
  rw [scan_startTag, if_pos hc, still] at hn
  simp at hn

theorem Partners.end_le (h : Partners ps i j) (h' : Partners ps i l) : j ≤ l := by
  refine Nat.le_of_not_lt ?_
  intro hlt
  obtain ⟨tag, _, he, _⟩ := h'.tags
  have hn := h.neutral
  rw [Neutral, between_split he h'.lt hlt, scan_append, h'.neutral,
    Option.bind_some, scan_endTag_nil] at hn
  cases hn

theorem Partners.start_unique (h : Partners ps i j) (h' : Partners ps k j) : k = i := by
  rcases Nat.lt_trichotomy k i with hlt | heq | hlt
  · exact absurd (h'.nested h hlt h.lt) (Nat.lt_irrefl j)
  · exact heq
  · exact absurd (h.nested h' hlt h'.lt) (Nat.lt_irrefl j)

/-! ## Partners are found -/

/-- What closes an open element, with what was opened in between. -/
theorem exists_end {name : String} {inside names : List String}
    (h : scan ps (inside ++ name :: names) = some []) :
    ∃ inner rest, ps = inner ++ .endTag name :: rest ∧ scan inner inside = some [] := by
  induction ps generalizing inside with
  | nil => simp at h
  | cons p ps ih =>
    cases p with
    | text html =>
      obtain ⟨inner, rest, rfl, hs⟩ := ih (by simpa using h)
      exact ⟨.text html :: inner, rest, rfl, by simpa using hs⟩
    | startTag tag =>
      rw [scan_startTag] at h
      have opened : scan ps ((if tag.isClosed then tag.name :: inside else inside) ++
          name :: names) = some [] := by
        split at h <;> simp_all
      obtain ⟨inner, rest, rfl, hs⟩ := ih opened
      exact ⟨.startTag tag :: inner, rest, rfl, by rw [scan_startTag, hs]⟩
    | endTag m =>
      cases inside with
      | nil =>
        rw [List.nil_append, scan_endTag_cons] at h
        split at h
        · rename_i hm
          exact ⟨[], ps, by rw [hm]; rfl, rfl⟩
        · cases h
      | cons n inside =>
        rw [List.cons_append, scan_endTag_cons] at h
        split at h
        · rename_i hm
          obtain ⟨inner, rest, rfl, hs⟩ := ih h
          exact ⟨.endTag m :: inner, rest, rfl, by rw [scan_endTag_cons, if_pos hm, hs]⟩
        · cases h

/-- An element that is open behind the pieces was opened in them, or it was open before and they
close what was opened inside of it. -/
theorem opened_or_open {name : String} {names start : List String}
    (h : scan ps start = some (name :: names)) :
    (∃ before tag after, ps = before ++ .startTag tag :: after ∧ tag.name = name ∧
      tag.isClosed = true ∧ Neutral after) ∨
    ∃ inside, start = inside ++ name :: names ∧ scan ps inside = some [] := by
  induction ps generalizing start with
  | nil =>
    cases h
    exact .inr ⟨[], rfl, rfl⟩
  | cons p ps ih =>
    -- what is found behind the first piece is found with it
    have later (found : ∃ before tag after, ps = before ++ .startTag tag :: after ∧
        tag.name = name ∧ tag.isClosed = true ∧ Neutral after) :
        ∃ before tag after, p :: ps = before ++ .startTag tag :: after ∧
          tag.name = name ∧ tag.isClosed = true ∧ Neutral after := by
      obtain ⟨before, tag, after, rfl, hfound⟩ := found
      exact ⟨p :: before, tag, after, rfl, hfound⟩
    cases p with
    | text html =>
      rcases ih (by simpa using h) with found | ⟨inside, rfl, hs⟩
      · exact .inl (later found)
      · exact .inr ⟨inside, rfl, by simpa using hs⟩
    | startTag tag =>
      rw [scan_startTag] at h
      cases hc : tag.isClosed with
      | false =>
        rw [hc] at h
        rcases ih h with found | ⟨inside, rfl, hs⟩
        · exact .inl (later found)
        · exact .inr ⟨inside, rfl, by simpa [scan_startTag, hc] using hs⟩
      | true =>
        rw [hc] at h
        rcases ih h with found | ⟨inside, hi, hs⟩
        · exact .inl (later found)
        · cases inside with
          | nil =>
            cases hi
            exact .inl ⟨[], tag, ps, rfl, rfl, hc, hs⟩
          | cons n inside =>
            cases hi
            exact .inr ⟨inside, rfl, by simpa [scan_startTag, hc] using hs⟩
    | endTag m =>
      cases start with
      | nil => simp at h
      | cons n start =>
        rw [scan_endTag_cons] at h
        split at h
        · rename_i hm
          rcases ih h with found | ⟨inside, rfl, hs⟩
          · exact .inl (later found)
          · exact .inr ⟨n :: inside, rfl, by rw [scan_endTag_cons, if_pos hm, hs]⟩
        · cases h

/-- What opened the innermost open element, with what was closed since. -/
theorem exists_start {name : String} {names : List String} (h : scan ps [] = some (name :: names)) :
    ∃ before tag after, ps = before ++ .startTag tag :: after ∧ tag.name = name ∧
      tag.isClosed = true ∧ Neutral after := by
  rcases opened_or_open h with found | ⟨inside, hi, _⟩
  · exact found
  · simp at hi

theorem partners_of_end {name : String} (h : Neutral ps) (he : ps[j]? = some (.endTag name)) :
    ∃ i, Partners ps i j := by
  obtain ⟨hj, he'⟩ := List.getElem?_eq_some_iff.mp he
  have split : ps = ps.take j ++ .endTag name :: ps.drop (j + 1) := by
    rw [← he', ← List.drop_eq_getElem_cons hj, List.take_append_drop]
  rw [Neutral, split, scan_append] at h
  obtain ⟨names, hbefore, h⟩ := Option.bind_eq_some_iff.mp h
  cases names with
  | nil => simp at h
  | cons n names =>
    rw [scan_endTag_cons] at h
    split at h
    · rename_i hn
      obtain ⟨before, tag, after, ht, rfl, hc, hneutral⟩ := exists_start hbefore
      have hlen : before.length < j := by
        have := congrArg List.length ht
        rw [List.length_take, List.length_append, List.length_cons] at this
        omega
      refine ⟨before.length, hlen, ⟨tag, ?_, by rw [he, hn], hc⟩, ?_⟩
      · rw [← List.getElem?_take_of_lt hlen, ht]
        simp
      · rw [between, ht]
        simpa using hneutral
    · cases h

theorem partners_of_start {tag : StartTag} (h : Neutral ps) (hs : ps[i]? = some (.startTag tag))
    (hc : tag.isClosed = true) : ∃ j, Partners ps i j := by
  obtain ⟨hi, hs'⟩ := List.getElem?_eq_some_iff.mp hs
  have split : ps = ps.take i ++ .startTag tag :: ps.drop (i + 1) := by
    rw [← hs', ← List.drop_eq_getElem_cons hi, List.take_append_drop]
  rw [Neutral, split, scan_append] at h
  obtain ⟨names, _, h⟩ := Option.bind_eq_some_iff.mp h
  rw [scan_startTag, if_pos hc] at h
  obtain ⟨inner, rest, hr, hneutral⟩ := @exists_end _ tag.name [] names h
  have inside : between ps i (i + 1 + inner.length) = inner := by
    rw [between, List.drop_take, hr]
    simp
  refine ⟨i + 1 + inner.length, by omega, ⟨tag, hs, ?_, hc⟩, by rwa [inside]⟩
  rw [← List.getElem?_drop, hr]
  simp

/-- In pieces that leave nothing open, the tags are paired. -/
theorem paired_of_neutral (h : Neutral ps) : Paired ps (Partners ps) where
  names hp := by
    obtain ⟨tag, hs, he, _⟩ := hp.tags
    exact ⟨hp.lt, tag, hs, he⟩
  start_unique := Partners.start_unique
  end_unique hp hp' := Nat.le_antisymm (hp'.end_le hp) (hp.end_le hp')
  nested := Partners.nested
  ends he := partners_of_end h he
  starts {i tag} hs := by
    constructor
    · rintro ⟨j, hp⟩
      obtain ⟨tag', hs', _, hc⟩ := hp.tags
      rw [hs] at hs'
      cases hs'
      exact hc
    · exact partners_of_start h hs

end Hypertext.Piece
