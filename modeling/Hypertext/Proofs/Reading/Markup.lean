import Hypertext.Document.Seed
import Hypertext.Proofs.Reading.Attributes

/-! # Reading markup

Markup is read in two steps. First its tags are found: each goes from a `<` to the next `>`, and
neither of the two may stand outside of them. Then each tag is read for its name and the names of
its attributes. -/

namespace Hypertext

namespace Reading

/-- A tag without the values of its attributes. The name of an end tag begins with a slash. -/
structure Tag where
  name : String
  attributes : List String
deriving DecidableEq, Repr

/-- What stands between each `<` and the next `>`, in order. In the middle of a tag, `inside` is
what was read of it, the last character first. -/
def readTokens (inside : Option (List Char)) : List Char → Option (List (List Char))
  | [] => if inside.isNone then some [] else none
  | c :: cs =>
    match inside with
    | none =>
      if c = '<' then readTokens (some []) cs
      else if c = '>' then none
      else readTokens none cs
    | some token =>
      if c = '>' then (token.reverse :: ·) <$> readTokens none cs
      else readTokens (some (c :: token)) cs

def readTag (token : List Char) : Option Tag := do
  let attributes ← readAttributes (token.dropWhile (· != ' '))
  return { name := String.ofList (token.takeWhile (· != ' ')), attributes := attributes.map (·.1) }

/-- The tags of the markup, in order. -/
def readMarkup (html : String) : Option (List Tag) := do
  (← readTokens none html.toList).mapM readTag

/-- The text has nothing in it that could begin or end a tag. -/
def Harmless (text : List Char) : Prop :=
  ∀ c ∈ text, c ≠ '<' ∧ c ≠ '>'

theorem readTokens_harmless {text : List Char} (h : Harmless text) (rest : List Char) :
    readTokens none (text ++ rest) = readTokens none rest := by
  induction text with
  | nil => rfl
  | cons c text ih =>
    obtain ⟨⟨hl, hg⟩, ht⟩ := List.forall_mem_cons.mp h
    rw [List.cons_append, readTokens]
    simp only [if_neg hl, if_neg hg, ih ht]

theorem readTokens_inside {token : List Char} (h : ∀ c ∈ token, c ≠ '>') (before rest : List Char) :
    readTokens (some before) (token ++ '>' :: rest) =
      ((before.reverse ++ token) :: ·) <$> readTokens none rest := by
  induction token generalizing before with
  | nil => simp [readTokens]
  | cons c token ih =>
    obtain ⟨hc, ht⟩ := List.forall_mem_cons.mp h
    rw [List.cons_append, readTokens]
    simp [if_neg hc, ih ht]

theorem readTokens_token {token : List Char} (h : ∀ c ∈ token, c ≠ '>') (rest : List Char) :
    readTokens none ('<' :: (token ++ '>' :: rest)) = (token :: ·) <$> readTokens none rest := by
  rw [readTokens]
  simpa using readTokens_inside h [] rest

/-- A tag's name goes up to its attributes. -/
theorem readTag_append {name attributes : List Char} {as : List (String × Option String)}
    (hn : ∀ c ∈ name, c ≠ ' ') (ha : Separated attributes)
    (hr : readAttributes attributes = some as) :
    readTag (name ++ attributes) = some ⟨String.ofList name, as.map (·.1)⟩ := by
  obtain ⟨htake, hdrop⟩ := @takeWhile_stops (· != ' ') name attributes
    (fun c hc => by simpa using hn c hc) (fun c hc => by rw [ha c hc]; rfl)
  simp only [readTag, htake, hdrop, hr]
  rfl

end Reading

/-! ## Pieces -/

open Reading

namespace Piece

/-- The names in the piece are plain, and there is no tag in a text, unless it is the doctype. -/
def Plain : Piece → Prop
  | startTag tag => PlainName tag.name ∧ ∀ a ∈ tag.attributes.entries, PlainName a.name
  | endTag name => PlainName name
  | text html => text html = doctype ∨ Harmless html.toList

/-- The tag that the piece is. -/
def tag? : Piece → Option Tag
  | startTag tag => some ⟨tag.name, (tag.attributes.entries.filterMap Attribute.written?).map (·.1)⟩
  | endTag name => some ⟨"/" ++ name, []⟩
  | text html => if text html = doctype then some ⟨"!DOCTYPE", ["html"]⟩ else none

/-- What is read of a tag with more markup behind it. -/
theorem read_tag {token : List Char} {t : Tag} (hc : ∀ c ∈ token, c ≠ '>')
    (ht : readTag token = some t) (rest : List Char) :
    ∃ tokens : List (List Char), tokens.mapM readTag = some [t] ∧
      readTokens none ('<' :: (token ++ '>' :: rest)) = (tokens ++ ·) <$> readTokens none rest :=
  ⟨[token], by simp [ht], readTokens_token hc rest⟩

/-- What is read first of a plain piece with more behind it is its tag, if it is one. -/
theorem Plain.read {p : Piece} (h : p.Plain) (rest : List Char) :
    ∃ tokens : List (List Char), tokens.mapM readTag = some p.tag?.toList ∧
      readTokens none (p.html.toList ++ rest) = (tokens ++ ·) <$> readTokens none rest := by
  cases p with
  | startTag tag =>
    obtain ⟨hn, ha⟩ := h
    have tag_read := readTag_append (fun c hc => hn.ne_space hc) (separated_html _)
      (readAttributes_html ha)
    have token : ∀ c ∈ tag.name.toList ++ tag.attributes.html.toList, c ≠ '>' := fun c hc => by
      rcases List.mem_append.mp hc with hc | hc
      · exact hn.ne_of_mem hc (by simp)
      · exact ne_of_mem_html ha c hc
    rw [String.ofList_toList] at tag_read
    simpa [html, StartTag.html, tag?] using read_tag token tag_read rest
  | endTag name =>
    have hname : PlainName name := h
    have tag_read := @readTag_append ('/' :: name.toList) [] []
      (List.forall_mem_cons.mpr ⟨by decide, fun c hc => hname.ne_space hc⟩)
      (by simp [Separated]) (by rw [readAttributes])
    have token : ∀ c ∈ '/' :: name.toList, c ≠ '>' :=
      List.forall_mem_cons.mpr ⟨by decide, fun c hc => hname.ne_of_mem hc (by simp)⟩
    have joined : String.ofList ('/' :: name.toList) = "/" ++ name := by
      apply String.toList_inj.mp
      simp
    rw [joined, List.append_nil] at tag_read
    simpa [html, tag?] using read_tag token tag_read rest
  | text html =>
    by_cases hd : text html = doctype
    · have plain : ∀ a ∈ [(⟨"html", .flag true⟩ : Attribute)], PlainName a.name :=
        List.forall_mem_singleton.mpr (by decide)
      have name : ∀ c ∈ "!DOCTYPE".toList, c ≠ ' ' ∧ c ≠ '>' := by simp
      have tag_read := readTag_append (fun c hc => (name c hc).1) (separated_html _)
        (readAttributes_html plain)
      have token : ∀ c ∈ "!DOCTYPE".toList ++ (Attributes.html ⟨[⟨"html", .flag true⟩]⟩).toList,
          c ≠ '>' := fun c hc => by
        rcases List.mem_append.mp hc with hc | hc
        · exact (name c hc).2
        · exact ne_of_mem_html plain c hc
      have doctype_html : (doctype.html.toList ++ rest) = '<' :: ("!DOCTYPE".toList ++
          (Attributes.html ⟨[⟨"html", .flag true⟩]⟩).toList ++ '>' :: rest) := by
        rfl
      rw [hd, doctype_html]
      exact read_tag token tag_read rest
    · have harmless : Harmless html.toList := h.resolve_left hd
      exact ⟨[], by simp [tag?, hd], by simpa [Piece.html] using readTokens_harmless harmless rest⟩

/-- Plain pieces are read as the tags that they are. -/
theorem readMarkup_render {ps : List Piece} (h : ∀ p ∈ ps, p.Plain) :
    readMarkup (render ps) = some (ps.filterMap tag?) := by
  have found : ∃ tokens : List (List Char), tokens.mapM readTag = some (ps.filterMap tag?) ∧
      readTokens none (ps.flatMap (·.html.toList)) = some tokens := by
    induction ps with
    | nil => exact ⟨[], rfl, rfl⟩
    | cons p ps ih =>
      obtain ⟨hp, hps⟩ := List.forall_mem_cons.mp h
      obtain ⟨later, htags, htokens⟩ := ih hps
      obtain ⟨first, htag, htoken⟩ := hp.read (ps.flatMap (·.html.toList))
      refine ⟨first ++ later, ?_, ?_⟩
      · rw [List.mapM_append, htag, htags]
        cases ht : p.tag? <;> simp [ht]
      · rw [List.flatMap_cons, htoken, htokens]
        rfl
  obtain ⟨tokens, htags, htokens⟩ := found
  rw [readMarkup, toList_render, htokens]
  exact htags

end Piece

end Hypertext
