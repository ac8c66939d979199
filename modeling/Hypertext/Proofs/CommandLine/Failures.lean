import Hypertext.Proofs.CommandLine.Output

/-! # What the program fails with

What can go wrong in a run is said here source by source, each for itself: the configuration file,
the body text, and the URLs. Several of these can go wrong at once. Then the program tells one
failure alone, the first in the order in which it comes to them, and it prints no document. -/

namespace Hypertext.CommandLine

variable {σ : Type} {toml : Toml.Library} {w : World (StateM σ)} {a : Arguments} {s t : σ} {f g : Failure}

/-! ## Failures -/

/-- What is read is no text: the system reports an error, or the bytes are no UTF-8. -/
def Unreadable (read : StateM σ (Except ReadError ByteArray)) (s : σ) (e : ReadError) : Prop :=
  (read.run s).1 = .error e ∨
    ∃ bytes, (read.run s).1 = .ok bytes ∧ String.fromUTF8? bytes = none ∧ e = .notText

/-- The world as it is when the body text is read. -/
def afterConfig (w : World (StateM σ)) (a : Arguments) (s : σ) : σ :=
  a.config.elim s fun path => ((w.file path).run s).2

/-- The URL is not one that is known how to link. -/
def Unlinkable (url : String) : Prop :=
  ∀ r, Resource.classify url ≠ .ok r

/-- The failure is there, whether or not it is the one that the program tells. -/
inductive Fails (toml : Toml.Library) (w : World (StateM σ)) (a : Arguments) (s : σ) :
    Failure → Prop
  | configUnreadable {path : String} {e : ReadError} (hc : a.config = some path)
      (hr : Unreadable (w.file path) s e) : Fails toml w a s (.configUnreadable path e)
  | configWrong {path text : String} {t : σ} {e : ConfigError} (hc : a.config = some path)
      (hr : GivesText (w.file path) s text t) (he : DocumentConfig.load toml text = .error e) :
      Fails toml w a s (.configWrong path (toml.report text e))
  | bodyUnreadable {path : String} {e : ReadError} (hi : a.input = some path)
      (hr : Unreadable (w.file path) (afterConfig w a s) e) : Fails toml w a s (.bodyUnreadable path e)
  | inputUnreadable {e : ReadError} (hi : a.input = none)
      (hr : Unreadable w.stdin (afterConfig w a s) e) : Fails toml w a s (.inputUnreadable e)
  | configUrl {loaded : DocumentConfig} {t : σ} {url : String} (hl : Loads toml w a s loaded t)
      (hu : url ∈ loaded.urls) (hn : Unlinkable url) : Fails toml w a s (.document (.unknownResource url))
  | optionUrl {url : String} (hu : url ∈ a.urls) (hn : Unlinkable url) :
      Fails toml w a s (.document (.unknownResource url))

/-- The order in which the program comes to the failures. -/
def Failure.stage : Failure → Nat
  | configUnreadable .. | configWrong .. => 1
  | bodyUnreadable .. | inputUnreadable .. => 2
  | document _ => 3

/-- No failure is there at an earlier stage. A URL is the first one that cannot be linked, with
those of the configuration before those of the options. -/
structure First (toml : Toml.Library) (w : World (StateM σ)) (a : Arguments) (s : σ) (f : Failure) :
    Prop where
  fails : Fails toml w a s f
  least : ∀ g, Fails toml w a s g → f.stage ≤ g.stage
  foremost : ∀ url, f = .document (.unknownResource url) →
    ∃ loaded t before after, Loads toml w a s loaded t ∧
      loaded.urls ++ a.urls = before ++ url :: after ∧
      ∀ u ∈ before, ∃ r, Resource.classify u = .ok r

/-! ## Texts -/

theorem unreadable_iff {read : StateM σ (Except ReadError ByteArray)} {e : ReadError} :
    Unreadable read s e ↔ textOfBytes (read.run s).1 = .error e := by
  unfold Unreadable
  cases (read.run s).1 with
  | error e' => simp [textOfBytes]
  | ok bytes => cases h : String.fromUTF8? bytes <;> simp [textOfBytes, h, eq_comm]

theorem mapError_eq_error_iff {ε ε' α : Type} {x : Except ε α} {words : ε → ε'} {e : ε'} :
    x.mapError words = .error e ↔ ∃ e', x = .error e' ∧ e = words e' := by
  cases x with
  | error e' => simp [Except.mapError, eq_comm]
  | ok a => simp [Except.mapError]

theorem map_eq_error_iff {ε α β : Type} {x : Except ε α} {f : α → β} {e : ε} :
    x.map f = .error e ↔ x = .error e := by
  cases x <;> simp [Except.map]

/-! ## Stages -/

theorem configOf_error_iff {path : String} {read : Except ReadError ByteArray} :
    configOf toml path read = .error f ↔
      (∃ e, textOfBytes read = .error e ∧ f = .configUnreadable path e) ∨
      ∃ text e, textOfBytes read = .ok text ∧ DocumentConfig.load toml text = .error e ∧
        f = .configWrong path (toml.report text e) := by
  cases ht : textOfBytes read with
  | error e => simp [configOf, ht, eq_comm]
  | ok text => cases hc : DocumentConfig.load toml text <;> simp [configOf, ht, hc, eq_comm]

theorem state_loadConfig (toml : Toml.Library) (w : World (StateM σ)) (a : Arguments) (s : σ) :
    ((loadConfig toml w a).run s).2 = afterConfig w a s := by
  unfold afterConfig
  cases hc : a.config with
  | none => rw [run_loadConfig_of_none hc]; rfl
  | some path => rw [run_loadConfig_of_some hc rfl]; rfl

theorem loadConfig_error_iff :
    ((loadConfig toml w a).run s).1 = .error f ↔ Fails toml w a s f ∧ f.stage = 1 := by
  cases hc : a.config with
  | none =>
    rw [run_loadConfig_of_none hc]
    constructor
    · intro h
      cases h
    · intro failed
      obtain ⟨hf, hs⟩ := failed
      cases hf with
      | configUnreadable hc' | configWrong hc' => rw [hc] at hc'; cases hc'
      | bodyUnreadable | inputUnreadable | configUrl | optionUrl => cases hs
  | some path =>
    rw [run_loadConfig_of_some hc rfl, map_eq_error_iff, configOf_error_iff]
    constructor
    · intro wrong
      rcases wrong with ⟨e, he, rfl⟩ | ⟨text, e, ht, he, rfl⟩
      · exact ⟨.configUnreadable hc (unreadable_iff.mpr he), rfl⟩
      · exact ⟨.configWrong hc ((givesText_iff rfl).mpr ⟨ht, rfl⟩) he, rfl⟩
    · intro failed
      obtain ⟨hf, hs⟩ := failed
      cases hf with
      | configUnreadable hc' hr =>
        cases hc.symm.trans hc'
        exact .inl ⟨_, unreadable_iff.mp hr, rfl⟩
      | configWrong hc' hr he =>
        cases hc.symm.trans hc'
        exact .inr ⟨_, _, ((givesText_iff rfl).mp hr).1, he, rfl⟩
      | bodyUnreadable | inputUnreadable | configUrl | optionUrl => cases hs

/-- A text that cannot be read fails with the words for it. -/
theorem run_text_error_iff {read : StateM σ (Except ReadError ByteArray)}
    {words : ReadError → Failure} :
    ((do return (textOfBytes (← read)).mapError words : StateM σ (Except Failure String)).run s).1 =
        .error f ↔
      ∃ e, Unreadable read s e ∧ f = words e := by
  simp only [unreadable_iff]
  exact mapError_eq_error_iff

theorem loadBody_error_iff :
    ((loadBody w a).run (afterConfig w a s)).1 = .error f ↔ Fails toml w a s f ∧ f.stage = 2 := by
  unfold loadBody
  cases hi : a.input with
  | none =>
    rw [run_text_error_iff]
    constructor
    · intro unread
      obtain ⟨e, he, rfl⟩ := unread
      exact ⟨.inputUnreadable hi he, rfl⟩
    · intro failed
      obtain ⟨hf, hs⟩ := failed
      cases hf with
      | inputUnreadable _ hr => exact ⟨_, hr, rfl⟩
      | bodyUnreadable hi' => rw [hi] at hi'; cases hi'
      | configUnreadable | configWrong | configUrl | optionUrl => cases hs
  | some path =>
    rw [run_text_error_iff]
    constructor
    · intro unread
      obtain ⟨e, he, rfl⟩ := unread
      exact ⟨.bodyUnreadable hi he, rfl⟩
    · intro failed
      obtain ⟨hf, hs⟩ := failed
      cases hf with
      | bodyUnreadable hi' hr =>
        cases hi.symm.trans hi'
        exact ⟨_, hr, rfl⟩
      | inputUnreadable hi' => rw [hi] at hi'; cases hi'
      | configUnreadable | configWrong | configUrl | optionUrl => cases hs

theorem page_error_iff {config : DocumentConfig} {body : String} {e : BuildError} :
    page config body = .error e ↔ document config = .error e := by
  unfold page
  cases document config <;> simp

theorem Fails.stage_cases (h : Fails toml w a s f) : f.stage = 1 ∨ f.stage = 2 ∨ f.stage = 3 := by
  cases h with
  | configUnreadable | configWrong => exact .inl rfl
  | bodyUnreadable | inputUnreadable => exact .inr (.inl rfl)
  | configUrl | optionUrl => exact .inr (.inr rfl)

theorem Loads.unique {loaded loaded' : DocumentConfig} {u v : σ} (h : Loads toml w a s loaded u)
    (h' : Loads toml w a s loaded' v) : loaded' = loaded := by
  unfold Loads at h h'
  cases hc : a.config with
  | none =>
    rw [hc] at h h'
    rw [h.1, h'.1]
  | some path =>
    rw [hc] at h h'
    obtain ⟨text, hr, hl⟩ := h
    obtain ⟨text', hr', hl'⟩ := h'
    have same := ((givesText_iff rfl).mp hr').1.symm.trans ((givesText_iff rfl).mp hr).1
    cases same
    cases hl.symm.trans hl'
    rfl

/-- At the last stage, a URL cannot be linked. -/
theorem document_error_of_fails (h : Fails toml w a s f) (hs : f.stage = 3) {loaded : DocumentConfig}
    {u : σ} (hl : Loads toml w a s loaded u) : ∃ e, document (a.over loaded) = .error e := by
  have unlinkable : ∃ url ∈ (a.over loaded).urls, Unlinkable url := by
    cases h with
    | configUrl hl' hu hn =>
      rw [hl.unique hl'] at hu
      exact ⟨_, List.mem_append_left _ hu, hn⟩
    | optionUrl hu hn => exact ⟨_, List.mem_append_right _ hu, hn⟩
    | configUnreadable | configWrong | bodyUnreadable | inputUnreadable => cases hs
  obtain ⟨url, hu, hn⟩ := unlinkable
  cases hd : document (a.over loaded) with
  | error e => exact ⟨e, rfl⟩
  | ok doc =>
    obtain ⟨r, hr⟩ := (document_ok_iff _).mp ⟨doc, hd⟩ url hu
    exact absurd hr (hn r)

theorem fails_of_document_error {loaded : DocumentConfig} {u : σ} {e : BuildError}
    (hl : Loads toml w a s loaded u) (hd : document (a.over loaded) = .error e) :
    Fails toml w a s (.document e) := by
  obtain ⟨before, url, after, split, _, hn, rfl⟩ := (document_error_iff _ e).mp hd
  have hu : url ∈ loaded.urls ++ a.urls := by
    rw [show loaded.urls ++ a.urls = _ from split]
    exact List.mem_append_right _ List.mem_cons_self
  rcases List.mem_append.mp hu with hu | hu
  · exact .configUrl hl hu hn
  · exact .optionUrl hu hn

/-- The first URL that cannot be linked is the one that the document fails with. -/
theorem First.document_error (h : First toml w a s f) (hs : f.stage = 3) {loaded : DocumentConfig}
    {u : σ} (hl : Loads toml w a s loaded u) :
    ∃ e, f = .document e ∧ document (a.over loaded) = .error e := by
  have bad : ∃ url, Unlinkable url ∧ f = .document (.unknownResource url) := by
    cases h.fails with
    | configUrl _ _ hn | optionUrl _ hn => exact ⟨_, hn, rfl⟩
    | configUnreadable | configWrong | bodyUnreadable | inputUnreadable => cases hs
  obtain ⟨url, hn, rfl⟩ := bad
  obtain ⟨loaded', v, before, after, hl', split, linkable⟩ := h.foremost url rfl
  rw [hl.unique hl'] at split
  exact ⟨_, rfl, (document_error_iff _ _).mpr ⟨before, url, after, split, linkable, hn, rfl⟩⟩

/-- There is only one first failure. -/
theorem First.unique (h : First toml w a s f) (h' : First toml w a s g) : g = f := by
  have stages : g.stage = f.stage := Nat.le_antisymm (h'.least f h.fails) (h.least g h'.fails)
  rcases h.fails.stage_cases with hs | hs | hs
  · have hf := loadConfig_error_iff.mpr ⟨h.fails, hs⟩
    have hg := loadConfig_error_iff.mpr ⟨h'.fails, stages.trans hs⟩
    cases hf.symm.trans hg
    rfl
  · have hf := loadBody_error_iff.mpr ⟨h.fails, hs⟩
    have hg := loadBody_error_iff.mpr ⟨h'.fails, stages.trans hs⟩
    cases hf.symm.trans hg
    rfl
  · cases hc : ((loadConfig toml w a).run s).1 with
    | error f' =>
      obtain ⟨fails, hs'⟩ := loadConfig_error_iff.mp hc
      have := h.least f' fails
      omega
    | ok config =>
      obtain ⟨loaded, hl, _⟩ := loadConfig_ok_iff.mp (Prod.ext hc rfl)
      obtain ⟨e, rfl, hf⟩ := h.document_error hs hl
      obtain ⟨e', rfl, hg⟩ := h'.document_error (stages.trans hs) hl
      cases hf.symm.trans hg
      rfl

/-! ## The run -/

/-- The program tells the first failure, or there is none and it makes a page. -/
theorem run_convert_cases (toml : Toml.Library) (w : World (StateM σ)) (a : Arguments) (s : σ) :
    (∃ f t, First toml w a s f ∧ (convert toml w a).run s = (.ofFailure f, t)) ∨
      (∀ f, ¬ Fails toml w a s f) ∧ ∃ config u body html t, (loadConfig toml w a).run s = (.ok config, u) ∧
        (loadBody w a).run u = (.ok body, t) ∧ page config body = .ok html ∧
        (convert toml w a).run s = ({ code := 0, output := html ++ "\n" }, t) := by
  have loaded : ∃ result, (loadConfig toml w a).run s = (result, afterConfig w a s) :=
    ⟨_, Prod.ext rfl (state_loadConfig toml w a s)⟩
  obtain ⟨result, hc⟩ := loaded
  obtain ⟨read, t, hb⟩ : ∃ read t, (loadBody w a).run (afterConfig w a s) = (read, t) :=
    ⟨_, _, rfl⟩
  cases result with
  | error f =>
    obtain ⟨fails, hs⟩ := loadConfig_error_iff.mp (congrArg Prod.fst hc)
    refine .inl ⟨f, _, ⟨fails, ?_, ?_⟩, run_convert_of_config_error hc⟩
    · intro g hg
      have := hg.stage_cases
      omega
    · intro url hu
      rw [hu] at hs
      cases hs
  | ok config =>
    have afterwards (g : Failure) (hg : Fails toml w a s g) : g.stage = 2 ∨ g.stage = 3 := by
      refine hg.stage_cases.resolve_left ?_
      intro hs
      cases (congrArg Prod.fst hc).symm.trans (loadConfig_error_iff.mpr ⟨hg, hs⟩)
    cases read with
    | error f =>
      obtain ⟨fails, hs⟩ := loadBody_error_iff.mp (congrArg Prod.fst hb)
      refine .inl ⟨f, _, ⟨fails, ?_, ?_⟩, run_convert_of_body_error hc hb⟩
      · intro g hg
        have := afterwards g hg
        omega
      · intro url hu
        rw [hu] at hs
        cases hs
    | ok body =>
      have last (g : Failure) (hg : Fails toml w a s g) : g.stage = 3 := by
        refine (afterwards g hg).resolve_left ?_
        intro hs
        cases (congrArg Prod.fst hb).symm.trans (loadBody_error_iff.mpr ⟨hg, hs⟩)
      obtain ⟨loaded, hl, rfl⟩ := loadConfig_ok_iff.mp hc
      have hrun := run_convert_of_ok hc hb
      cases hp : page (a.over loaded) body with
      | error e =>
        rw [hp] at hrun
        have hd := page_error_iff.mp hp
        refine .inl ⟨.document e, t, ⟨fails_of_document_error hl hd, ?_, ?_⟩, hrun⟩
        · intro g hg
          exact (last g hg).ge
        · intro url hu
          cases hu
          obtain ⟨before, _, after, split, linkable, _, ⟨⟩⟩ := (document_error_iff _ _).mp hd
          exact ⟨loaded, _, before, after, hl, split, linkable⟩
      | ok html =>
        rw [hp] at hrun
        refine .inr ⟨?_, _, _, body, html, t, hc, hb, hp, hrun⟩
        intro g hg
        obtain ⟨e, hd⟩ := document_error_of_fails hg (last g hg) hl
        cases hp.symm.trans (page_error_iff.mpr hd)

/-- **The first failure is told, and nothing else.** The program ends with code 0 and prints the
document, or it ends with code 1, prints no document and tells one failure. It fails just if
something is wrong with the configuration file, the body text or a URL, wherever the URL comes from,
and what it tells is the first failure in this order; of the URLs, those of the configuration come
before those of the options. -/
theorem exit_tells_first_failure (lib : Libraries) (w : World (StateM σ)) {arguments : List String}
    {a : Arguments} (ha : lib.arguments arguments = .ok a) (s : σ) :
    ∃ exit t, (execute lib w arguments).run s = (exit, t) ∧
      (exit.code = 1 ↔ ∃ f, Fails lib.toml w a s f) ∧
      ((exit.code = 0 ∧ exit.error = "" ∧
          ∃ loaded u body doc, Loads lib.toml w a s loaded u ∧
            GivesText (bodySource w a) u body t ∧ document (a.over loaded) = .ok doc ∧
            exit.output =
              (doc.value.render {}).value ++ "<body>" ++ paragraphsHtml body ++ "\n") ∨
        exit.code = 1 ∧ exit.output = "" ∧
          ∃ f, First lib.toml w a s f ∧ (∀ g, First lib.toml w a s g → g = f) ∧
            exit.error = f.message ++ "\n") := by
  have converts : execute lib w arguments = convert lib.toml w a := by
    rw [execute, ha]
  rw [converts]
  rcases run_convert_cases lib.toml w a s with
    ⟨f, t, first, hrun⟩ | ⟨none, config, u, body, html, t, hc, hb, hp, hrun⟩
  · refine ⟨_, t, hrun, iff_of_true rfl ⟨f, first.fails⟩, .inr ⟨rfl, rfl, f, first, ?_, rfl⟩⟩
    exact fun _ hg => first.unique hg
  · obtain ⟨loaded, hl, rfl⟩ := loadConfig_ok_iff.mp hc
    obtain ⟨doc, hd, rfl⟩ := page_ok_iff.mp hp
    refine ⟨_, t, hrun, iff_of_false ?_ ?_, .inl ⟨rfl, rfl, ?_⟩⟩
    · intro code
      cases code
    · intro failed
      obtain ⟨f, hf⟩ := failed
      exact none f hf
    · exact ⟨loaded, u, body, doc, hl, loadBody_ok_iff.mp hb, hd, rfl⟩

def strayText : String := "urls = ['/a.js', 'page']"

/-- A file with a URL that cannot be linked, and a text to read. -/
def strayWorld : World (StateM Unit) :=
  smallWorld "c.toml" strayText "so be it"

/-- The option has such a URL as well. -/
def strayOptions : List String :=
  ["-u", "x.y", "-c", "c.toml"]

def strayArguments : Arguments where
  config := some "c.toml"
  urls := ["x.y"]

def strayLibraries : Libraries :=
  .ofTexts strayOptions strayArguments strayText
    [("urls", .array [.string "/a.js", .string "page"])]

theorem exit_tells_first_failure_stray :
    strayLibraries.arguments strayOptions = .ok strayArguments ∧
    Fails strayLibraries.toml strayWorld strayArguments () (.document (.unknownResource "x.y")) ∧
    (execute strayLibraries strayWorld strayOptions).run () =
      ({ code := 1, output := "", error := "Error: unknown resource type for 'page'\n" }, ()) ∧
    ∃ f, First strayLibraries.toml strayWorld strayArguments () f ∧
      f.message ++ "\n" = "Error: unknown resource type for 'page'\n" := by
  have parsed : strayLibraries.arguments strayOptions = .ok strayArguments :=
    Libraries.arguments_ofTexts _ _ _ _
  have answer : (execute strayLibraries strayWorld strayOptions).run () =
      ({ code := 1, output := "", error := "Error: unknown resource type for 'page'\n" }, ()) := by
    have exit : ((execute strayLibraries strayWorld strayOptions).run ()).1 =
        { code := 1, output := "", error := "Error: unknown resource type for 'page'\n" } := by
      decide +kernel
    exact Prod.ext exit rfl
  have unlinkable : Unlinkable "x.y" := by
    have unknown : (Resource.classify "x.y").toOption = none := by decide +kernel
    intro r hr
    rw [hr] at unknown
    cases unknown
  refine ⟨parsed, .optionUrl List.mem_cons_self unlinkable, answer, ?_⟩
  obtain ⟨exit, t, hrun, _, ending⟩ :=
    exit_tells_first_failure strayLibraries strayWorld parsed ()
  cases answer.symm.trans hrun
  rcases ending with ⟨code, _⟩ | ⟨_, _, f, first, _, told⟩
  · cases code
  · exact ⟨f, first, told.symm⟩

end Hypertext.CommandLine
