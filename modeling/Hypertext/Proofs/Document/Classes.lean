import Hypertext.Document.Resource
import Mathlib.Data.List.TakeWhile

/-! # How URLs are linked

A URL is linked by its file name, which is what it has behind its last slash, and by the extension,
which is what the file name has behind its last dot. A file name without a dot has no extension. It
is looked up among the link types all the same, so a word that is the extension of a link is linked
as if it were one, while the extensions of scripts are told from mere words. -/

namespace Hypertext.Resource

/-! ## Last parts -/

/-- The part is what the text has behind its last mark, or all of a text that has no mark. -/
def LastPart (mark : Char) (text part : String) : Prop :=
  mark ∉ part.toList ∧ (part = text ∨ ∃ front, text.toList = front ++ mark :: part.toList)

theorem not_mem_afterLast (mark : Char) (text : List Char) : mark ∉ afterLast mark text := by
  intro h
  have unmarked := List.mem_takeWhile_imp (List.mem_reverse.mp h)
  simp at unmarked

theorem afterLast_of_not_mem {mark : Char} {text : List Char} (h : mark ∉ text) :
    afterLast mark text = text := by
  have whole : text.reverse.takeWhile (· != mark) = text.reverse := by
    rw [List.takeWhile_eq_self_iff]
    intro c hc
    simpa using ne_of_mem_of_not_mem (List.mem_reverse.mp hc) h
  rw [afterLast, whole, List.reverse_reverse]

theorem afterLast_append {mark : Char} {part : List Char} (h : mark ∉ part) (front : List Char) :
    afterLast mark (front ++ mark :: part) = part := by
  have reversed : (front ++ mark :: part).reverse = part.reverse ++ mark :: front.reverse := by
    simp
  have stops : (part.reverse ++ mark :: front.reverse).takeWhile (· != mark) = part.reverse := by
    rw [List.takeWhile_append_of_pos]
    · simp
    · intro c hc
      simpa using ne_of_mem_of_not_mem (List.mem_reverse.mp hc) h
  rw [afterLast, reversed, stops, List.reverse_reverse]

/-- A text with a mark is split at the last one. -/
theorem exists_front {mark : Char} {text : List Char} (h : mark ∈ text) :
    ∃ front, text = front ++ mark :: afterLast mark text := by
  obtain ⟨back, front, reversed, unmarked⟩ := List.eq_append_cons_of_mem (List.mem_reverse.mpr h)
  have split : text = front.reverse ++ mark :: back.reverse := by
    rw [← List.reverse_reverse text, reversed]
    simp
  have last : afterLast mark text = back.reverse := by
    rw [split]
    exact afterLast_append (by simpa using unmarked) _
  exact ⟨front.reverse, by rw [last]; exact split⟩

/-- Every text has one last part. -/
theorem lastPart_iff {mark : Char} {text part : String} :
    LastPart mark text part ↔ part = String.ofList (afterLast mark text.toList) := by
  constructor
  · rintro ⟨unmarked, rfl | ⟨front, split⟩⟩
    · rw [afterLast_of_not_mem unmarked, String.ofList_toList]
    · rw [split, afterLast_append unmarked, String.ofList_toList]
  · rintro rfl
    rw [LastPart, String.toList_ofList]
    refine ⟨not_mem_afterLast mark _, ?_⟩
    by_cases h : mark ∈ text.toList
    · exact .inr (exists_front h)
    · exact .inl (by rw [afterLast_of_not_mem h, String.ofList_toList])

/-! ## What there is to link -/

/-- A link that is told by its relation alone. -/
def plainLink (rel : String) : Resource :=
  .link ⟨[⟨"rel", .text rel⟩, ⟨"type", .absent⟩]⟩

/-- An icon, with the type of its image. -/
def icon (mime : String) : Resource :=
  .link ⟨[⟨"rel", .text "icon"⟩, ⟨"type", .text mime⟩]⟩

/-- What is linked by its whole file name. -/
def manifest : String × Resource :=
  ("manifest.json", plainLink "manifest")

/-- The extensions of what is linked. -/
def linkExtensions : List (String × Resource) :=
  [("css", plainLink "stylesheet"), ("png", icon "image/png"), ("svg", icon "image/svg+xml"),
    ("ico", icon "image/x-icon"), ("webp", icon "image/webp"), ("avif", icon "image/avif")]

/-- The extensions of what is run. -/
def scriptExtensions : List (String × Resource) :=
  [("js", .script), ("mjs", .scriptModule)]

/-- The resource that was found for the URL, if one was. -/
def answer (url : String) : Option Resource → Except BuildError Resource
  | some r => .ok r
  | none => .error (.unknownResource url)

theorem find?_linkTypes (ts : List LinkType) (key : String) :
    ((ts.find? (·.key.toList = key.toList)).map LinkType.attributes).map link =
      (ts.map fun t => (t.key, link t.attributes)).lookup key := by
  induction ts with
  | nil => rfl
  | cons t ts ih =>
    by_cases h : t.key = key
    · simp [h]
    · have different : t.key.toList ≠ key.toList := fun same => h (String.toList_inj.mp same)
      have apart : (key == t.key) = false := by simpa using Ne.symm h
      simpa [List.lookup_cons, apart, different] using ih

/-- The link types are those of the manifest and of the extensions. -/
theorem map_linkFor? (key : String) :
    (linkFor? key.toList).map link = (manifest :: linkExtensions).lookup key :=
  find?_linkTypes linkTypes key

/-- No extension has a dot. -/
theorem dotless_extensions :
    ∀ e ∈ linkExtensions ++ scriptExtensions, '.' ∉ e.1.toList := by
  decide +kernel

theorem lookup_eq_none_of_dot {es : List (String × Resource)} {key : String}
    (hs : ∀ e ∈ es, '.' ∉ e.1.toList) (h : '.' ∈ key.toList) : es.lookup key = none := by
  rw [List.lookup_eq_none_iff]
  intro e he
  have different : key ≠ e.1 := by
    rintro rfl
    exact hs e he h
  simpa using different

/-! ## The link of a URL -/

/-- What is behind the last slash of a URL. -/
def fileOf (url : String) : String :=
  String.ofList (afterLast '/' url.toList)

/-- What is behind the last dot of a file name, which is all of it if it has no dot. -/
def extensionOf (file : String) : String :=
  String.ofList (afterLast '.' file.toList)

theorem dot_not_mem_extensionOf (file : String) : '.' ∉ (extensionOf file).toList := by
  rw [extensionOf, String.toList_ofList]
  exact not_mem_afterLast '.' _

theorem extensionOf_of_dotless {file : String} (h : '.' ∉ file.toList) :
    extensionOf file = file := by
  rw [extensionOf, afterLast_of_not_mem h, String.ofList_toList]

theorem lookup_scriptExtensions (key : String) :
    scriptExtensions.lookup key =
      if key.toList = ['j', 's'] then some script
      else if key.toList = ['m', 'j', 's'] then some scriptModule
      else none := by
  have spelled {key word : String} : key.toList = word.toList ↔ key = word := String.toList_inj
  change _ = if key.toList = "js".toList then _ else if key.toList = "mjs".toList then _ else _
  rw [if_congr spelled rfl rfl, if_congr spelled rfl rfl, scriptExtensions]
  by_cases js : key = "js"
  · simp [js]
  by_cases mjs : key = "mjs"
  · simp [mjs, List.lookup_cons]
  have neither : (key == "js") = false ∧ (key == "mjs") = false := by simp [js, mjs]
  simp [List.lookup_cons, js, mjs, neither]

/-- The file name is looked up among the links, then the extension, which is the file name again if
there is no dot, and only then is it asked if there is a dot. -/
theorem classify_eq (url : String) :
    classify url =
      answer url (((manifest :: linkExtensions).lookup (fileOf url)).or
        (((manifest :: linkExtensions).lookup (extensionOf (fileOf url))).or
          (if '.' ∈ (fileOf url).toList then scriptExtensions.lookup (extensionOf (fileOf url))
            else none))) := by
  have file : (fileOf url).toList = afterLast '/' url.toList := String.toList_ofList
  have extension : (extensionOf (fileOf url)).toList = afterLast '.' (fileOf url).toList :=
    String.toList_ofList
  rw [← map_linkFor?, ← map_linkFor?, lookup_scriptExtensions, extension, file, ← Option.or_assoc,
    ← Option.map_or, classify]
  cases ((linkFor? (afterLast '/' url.toList)).or
    (linkFor? (afterLast '.' (afterLast '/' url.toList)))) with
  | some attributes => rfl
  | none =>
    by_cases dot : '.' ∈ afterLast '/' url.toList
    · simp only [dot, and_true, Option.map_none, Option.none_or, if_true]
      split_ifs <;> rfl
    · simp only [dot, and_false, if_false]
      rfl

theorem lookup_manifest_cons {key : String} (h : key ≠ manifest.1) :
    (manifest :: linkExtensions).lookup key = linkExtensions.lookup key := by
  have apart : (key == manifest.1) = false := by simpa using h
  change ((manifest.1, manifest.2) :: linkExtensions).lookup key = _
  rw [List.lookup_cons, apart]

/-- The name of a manifest has a dot. -/
theorem ne_manifest_of_dotless {key : String} (h : '.' ∉ key.toList) : key ≠ manifest.1 := by
  rintro rfl
  exact h (by decide +kernel)

theorem linkExtensions_dotless : ∀ e ∈ linkExtensions, '.' ∉ e.1.toList :=
  fun e he => dotless_extensions e (List.mem_append_left _ he)

/-- A file name with a dot is linked by its extension, unless it is that of a manifest. -/
theorem classify_of_dot {url : String} (dot : '.' ∈ (fileOf url).toList)
    (other : fileOf url ≠ manifest.1) :
    classify url =
      answer url ((linkExtensions ++ scriptExtensions).lookup (extensionOf (fileOf url))) := by
  have no_file : (manifest :: linkExtensions).lookup (fileOf url) = none := by
    rw [lookup_manifest_cons other]
    exact lookup_eq_none_of_dot linkExtensions_dotless dot
  have no_manifest := ne_manifest_of_dotless (dot_not_mem_extensionOf (fileOf url))
  rw [classify_eq, no_file, Option.none_or, lookup_manifest_cons no_manifest, if_pos dot,
    List.lookup_append]

/-- A file name without a dot is linked if it is the extension of a link. -/
theorem classify_of_dotless {url : String} (h : '.' ∉ (fileOf url).toList) :
    classify url = answer url (linkExtensions.lookup (fileOf url)) := by
  rw [classify_eq, extensionOf_of_dotless h, lookup_manifest_cons (ne_manifest_of_dotless h),
    if_neg h, Option.or_none, Option.or_self]

theorem answer_eq_ok {url : String} {found : Option Resource} {r : Resource} :
    answer url found = .ok r ↔ found = some r := by
  cases found <;> simp [answer]

theorem answer_eq_error {url : String} {found : Option Resource} :
    answer url found = .error (.unknownResource url) ↔ found = none := by
  cases found <;> simp [answer]

/-- No extension is linked as a manifest is. -/
theorem lookup_ne_manifest (key : String) :
    (linkExtensions ++ scriptExtensions).lookup key ≠ some manifest.2 := by
  intro h
  have others : ∀ e ∈ linkExtensions ++ scriptExtensions, e.2 ≠ manifest.2 := by decide +kernel
  obtain ⟨before, after, split, -⟩ := List.lookup_eq_some_iff.mp h
  exact others (key, manifest.2) (by rw [split]; simp) rfl

theorem classify_eq_manifest_iff {url : String} :
    classify url = .ok manifest.2 ↔ fileOf url = manifest.1 := by
  constructor
  · intro h
    by_contra other
    by_cases dot : '.' ∈ (fileOf url).toList
    · rw [classify_of_dot dot other, answer_eq_ok] at h
      exact lookup_ne_manifest _ h
    · rw [classify_of_dotless dot, answer_eq_ok] at h
      exact lookup_ne_manifest (fileOf url) (by rw [List.lookup_append, h, Option.some_or])
  · intro h
    rw [classify_eq, h]
    rfl

/-- A manifest is linked by its file name and everything else by its extension, if the file name
has a dot. If it has none then nothing is linked, unless the file name is the extension of a
link. -/
theorem classify_by_last_part (url : String) :
    ∃ file extension : String,
      (∀ part, LastPart '/' url part ↔ part = file) ∧
      (∀ part, LastPart '.' file part ↔ part = extension) ∧
      (classify url = .ok manifest.2 ↔ file = manifest.1) ∧
      ('.' ∈ file.toList → file ≠ manifest.1 →
        classify url = answer url ((linkExtensions ++ scriptExtensions).lookup extension)) ∧
      ('.' ∉ file.toList → classify url = answer url (linkExtensions.lookup file)) ∧
      (('.' ∉ file.toList → classify url = .error (.unknownResource url)) ↔
        file ∉ linkExtensions.map (·.1)) := by
  refine ⟨fileOf url, extensionOf (fileOf url), fun _ => lastPart_iff, fun _ => lastPart_iff,
    classify_eq_manifest_iff, classify_of_dot, classify_of_dotless, ?_⟩
  constructor
  · intro unknown listed
    obtain ⟨e, he, name⟩ := List.mem_map.mp listed
    have dotless : '.' ∉ (fileOf url).toList := name ▸ linkExtensions_dotless e he
    have missing := unknown dotless
    rw [classify_of_dotless dotless, answer_eq_error, List.lookup_eq_none_iff] at missing
    simpa [name] using missing e he
  · intro unlisted dotless
    rw [classify_of_dotless dotless, answer_eq_error, List.lookup_eq_none_iff]
    intro e he
    have different : fileOf url ≠ e.1 := fun same => unlisted (same ▸ List.mem_map_of_mem he)
    simpa using different

/-- A word that is the extension of a link is linked, and one that is the extension of a script is
not run. -/
theorem stylesheet_of_bare_word :
    '.' ∉ "css".toList ∧ LastPart '/' "css" "css" ∧ LastPart '/' "js" "js" ∧
      classify "css" = .ok (plainLink "stylesheet") ∧
      classify "css" ≠ .error (.unknownResource "css") ∧
      classify "js" = .error (.unknownResource "js") := by
  refine ⟨by decide +kernel, ⟨by decide +kernel, .inl rfl⟩, ⟨by decide +kernel, .inl rfl⟩,
    by decide +kernel, by decide +kernel, by decide +kernel⟩

end Hypertext.Resource
