/-
# What a loader is made of

A loader is what the settings say, in whatever order they come. What is said here of
one setting after another is said of plans: a setting puts at most one part behind
those that are there already, or it leaves them alone, unless it is of the kind that
takes the place of all of them (`LoaderPlan.preprocessors_apply` and those beside it).
So after the last setting of that kind the parts are those of the settings behind it,
in order (`LoaderPlan.applyAll_appends`). For the parsers the kind is that of the
settings that register the same extension, up to letter case; of these the last one
counts (`LoaderPlan.parserFor?_of_last`).

A file is then parsed by the parser that counts for its extension
(`Loader.parsedWith_parseSource`), and if there is none, that is what is reported.

Key definitions: `Setting.Registers`, `Setting.LastRegistered`, `Loader.ParsedWith`,
`Loader.Parses`, `Loader.Follows`.
Key theorems: `LoaderPlan.applyAll_appends`, `LoaderPlan.parserFor?_of_last`,
`Loader.follows_ofSettings`.
-/
import Mathlib.Data.List.Induction
import TypedConfig.FileTree
import TypedConfig.Loader
import TypedConfig.Proofs.Entries
import TypedConfig.Proofs.FileExtension
import TypedConfig.Proofs.Outcome

namespace TypedConfig

variable {α : Type}

/-! ### What a setting adds -/

namespace Setting

/-- The spelling that is added. -/
def spelling? : Setting α → Option Spelling
  | .spelling added => some added
  | _ => none

/-- The preprocessor that is added. -/
def preprocessor? : Setting α → Option Preprocessor
  | .preprocessor added => some added
  | _ => none

/-- The decoder that is added. -/
def decoder? : Setting α → Option (Decoder α)
  | .decoder added => some added
  | _ => none

/-- The setting registers the parser for the extension, which it may write in another letter
case. -/
inductive Registers (extension : String) (parser : Parser) : Setting α → Prop
  | parser {written : String} (hw : written ∈ parser.extensions)
      (hs : Text.SameLetters written extension) : Registers extension parser (.parser parser)
  | parserFor {written : String} (hs : Text.SameLetters written extension) :
      Registers extension parser (.parserFor written parser)

/-- No setting registers a parser for the extension. -/
def NoneRegistered (settings : List (Setting α)) (extension : String) : Prop :=
  ∀ setting ∈ settings, ∀ parser, ¬ setting.Registers extension parser

/-- The last of the settings that register a parser for the extension registers this one. -/
def LastRegistered (settings : List (Setting α)) (extension : String) (parser : Parser) : Prop :=
  ∃ before setting after, settings = before ++ setting :: after ∧
    setting.Registers extension parser ∧ NoneRegistered after extension

theorem LastRegistered.not_none {settings : List (Setting α)} {extension : String}
    {parser : Parser} (h : LastRegistered settings extension parser) :
    ¬ NoneRegistered settings extension := by
  obtain ⟨before, setting, after, rfl, hp, -⟩ := h
  exact fun hno => hno setting (by simp) parser hp

/-- Either no setting registers a parser for the extension, or some setting is the last to. -/
theorem noneRegistered_or_last (settings : List (Setting α)) (extension : String) :
    NoneRegistered settings extension ∨ ∃ parser, LastRegistered settings extension parser := by
  induction settings using List.reverseRecOn with
  | nil => exact Or.inl fun _ h => absurd h List.not_mem_nil
  | append_singleton settings setting ih =>
    by_cases hs : ∃ parser, setting.Registers extension parser
    · obtain ⟨parser, hp⟩ := hs
      exact Or.inr ⟨parser, settings, setting, [], rfl, hp, fun _ h => absurd h List.not_mem_nil⟩
    · rw [not_exists] at hs
      rcases ih with hno | ⟨parser, before, other, after, rfl, hp, hafter⟩
      · exact Or.inl (List.forall_mem_append.mpr ⟨hno, List.forall_mem_singleton.mpr hs⟩)
      · refine Or.inr ⟨parser, before, other, after ++ [setting], by simp, hp, ?_⟩
        exact List.forall_mem_append.mpr ⟨hafter, List.forall_mem_singleton.mpr hs⟩

end Setting

/-! ### One setting after another -/

namespace LoaderPlan

open Setting

variable {setting : Setting α} {extension : String} {parser : Parser}

/-- A parser that is meant for several extensions is entered for each of them; nothing else
changes. -/
theorem foldl_addParserFor (parser : Parser) : ∀ (extensions : List String) (plan : LoaderPlan α),
    extensions.foldl (fun p extension => p.addParserFor extension parser) plan =
      { plan with
        parsers := extensions.foldl
          (fun ps extension => Entries.insert (Text.asciiLowered extension) parser ps)
          plan.parsers }
  | [], _ => rfl
  | extension :: extensions, plan =>
    foldl_addParserFor parser extensions (plan.addParserFor extension parser)

theorem spellings_apply (plan : LoaderPlan α) (setting : Setting α) :
    (plan.apply setting).spellings = plan.spellings ++ setting.spelling?.toList := by
  cases setting with
  | parser parser => simp [apply, foldl_addParserFor, spelling?]
  | _ => simp [apply, spelling?, addParserFor]

theorem preprocessors_apply (h : setting ≠ .noPreprocessors) (plan : LoaderPlan α) :
    (plan.apply setting).preprocessors = plan.preprocessors ++ setting.preprocessor?.toList := by
  cases setting with
  | noPreprocessors => exact absurd rfl h
  | parser parser => simp [apply, foldl_addParserFor, preprocessor?]
  | _ => simp [apply, preprocessor?, addParserFor]

theorem decoders_apply (h : ∀ registry, setting ≠ .registry registry) (plan : LoaderPlan α) :
    (plan.apply setting).registry.decoders =
      plan.registry.decoders ++ setting.decoder?.toList := by
  cases setting with
  | registry registry => exact absurd rfl (h registry)
  | parser parser => simp [apply, foldl_addParserFor, decoder?]
  | _ => simp [apply, decoder?, addParserFor, Registry.register]

theorem resourceRoots_apply (h : ∀ roots, setting ≠ .resourceRoots roots) (plan : LoaderPlan α) :
    (plan.apply setting).resourceRoots = plan.resourceRoots := by
  cases setting with
  | resourceRoots roots => exact absurd rfl (h roots)
  | parser parser => rw [apply, foldl_addParserFor]
  | _ => rfl

/-! ### The parser for an extension -/

theorem parserFor?_addParserFor_of_same {written : String}
    (h : Text.SameLetters written extension) (plan : LoaderPlan α) (parser : Parser) :
    (plan.addParserFor written parser).build.parserFor? extension = some parser := by
  rw [Loader.parserFor?, build, addParserFor, Text.asciiLowered_eq_iff.mpr h]
  exact Entries.lookup_insert_self _ _ _

theorem parserFor?_addParserFor_of_not_same {written : String}
    (h : ¬ Text.SameLetters written extension) (plan : LoaderPlan α) (parser : Parser) :
    (plan.addParserFor written parser).build.parserFor? extension =
      plan.build.parserFor? extension :=
  Entries.lookup_insert_of_ne (fun he => h (Text.asciiLowered_eq_iff.mp he.symm)) _ _

theorem parserFor?_foldl_of_none {parser : Parser} : ∀ {extensions : List String},
    (∀ written ∈ extensions, ¬ Text.SameLetters written extension) → ∀ plan : LoaderPlan α,
      (extensions.foldl (fun p e => p.addParserFor e parser) plan).build.parserFor? extension =
        plan.build.parserFor? extension
  | [], _, _ => rfl
  | written :: extensions, h, plan => by
    rw [List.forall_mem_cons] at h
    rw [List.foldl_cons, parserFor?_foldl_of_none h.2, parserFor?_addParserFor_of_not_same h.1]

theorem parserFor?_foldl_of_mem {parser : Parser} : ∀ {extensions : List String},
    (∃ written ∈ extensions, Text.SameLetters written extension) → ∀ plan : LoaderPlan α,
      (extensions.foldl (fun p e => p.addParserFor e parser) plan).build.parserFor? extension =
        some parser
  | [], h, _ => by simp at h
  | written :: extensions, h, plan => by
    rw [List.foldl_cons]
    -- only the last of the extensions that are the same decides, but all are for one parser
    by_cases hrest : ∃ other ∈ extensions, Text.SameLetters other extension
    · exact parserFor?_foldl_of_mem hrest _
    · have hsame : Text.SameLetters written extension := by
        obtain ⟨other, ho, hs⟩ := h
        rcases List.mem_cons.mp ho with rfl | ho
        · exact hs
        · exact absurd ⟨other, ho, hs⟩ hrest
      rw [not_exists] at hrest
      rw [parserFor?_foldl_of_none fun other ho hs => hrest other ⟨ho, hs⟩,
        parserFor?_addParserFor_of_same hsame]

theorem parserFor?_apply_of_registers (h : setting.Registers extension parser)
    (plan : LoaderPlan α) : (plan.apply setting).build.parserFor? extension = some parser := by
  cases h with
  | parser hw hs => exact parserFor?_foldl_of_mem ⟨_, hw, hs⟩ plan
  | parserFor hs => exact parserFor?_addParserFor_of_same hs plan parser

theorem parserFor?_apply_of_not_registers
    (h : ∀ parser, ¬ setting.Registers extension parser) (plan : LoaderPlan α) :
    (plan.apply setting).build.parserFor? extension = plan.build.parserFor? extension := by
  cases setting with
  | parser parser => exact parserFor?_foldl_of_none (fun _ hw hs => h parser (.parser hw hs)) plan
  | parserFor written parser =>
    exact parserFor?_addParserFor_of_not_same (fun hs => h parser (.parserFor hs)) plan parser
  | _ => rfl

/-! ### All settings -/

/-- The plan after further settings, one after another. -/
abbrev applyAll (plan : LoaderPlan α) (settings : List (Setting α)) : LoaderPlan α :=
  settings.foldl apply plan

theorem applyAll_split (before : List (Setting α)) (setting : Setting α)
    (after : List (Setting α)) (plan : LoaderPlan α) :
    plan.applyAll (before ++ setting :: after) =
      ((plan.applyAll before).apply setting).applyAll after := by
  rw [applyAll, List.foldl_append, List.foldl_cons]

/-- Where each setting puts at most one part behind the others, all settings together put
theirs behind in order. -/
theorem applyAll_appends {γ : Type} (view : LoaderPlan α → List γ) {part : Setting α → Option γ}
    {Keeps : Setting α → Prop}
    (hstep : ∀ setting, Keeps setting → ∀ plan,
      view (plan.apply setting) = view plan ++ (part setting).toList) :
    ∀ {settings : List (Setting α)}, (∀ setting ∈ settings, Keeps setting) →
      ∀ plan : LoaderPlan α, view (plan.applyAll settings) = view plan ++ settings.filterMap part
  | [], _, plan => (List.append_nil (view plan)).symm
  | setting :: settings, h, plan => by
    rw [List.forall_mem_cons] at h
    have hhead := hstep setting h.1 plan
    calc view (plan.applyAll (setting :: settings))
        = view (plan.apply setting) ++ settings.filterMap part :=
          applyAll_appends view hstep h.2 (plan.apply setting)
      _ = view plan ++ ((part setting).toList ++ settings.filterMap part) := by
        rw [hhead, List.append_assoc]
      _ = view plan ++ (setting :: settings).filterMap part := by
        cases hp : part setting <;> simp [hp]

theorem spellings_applyAll (settings : List (Setting α)) (plan : LoaderPlan α) :
    (plan.applyAll settings).spellings = plan.spellings ++ settings.filterMap spelling? :=
  applyAll_appends (·.spellings) (fun setting (_ : True) plan => spellings_apply plan setting)
    (fun _ _ => trivial) plan

theorem preprocessors_applyAll {settings : List (Setting α)} (h : .noPreprocessors ∉ settings)
    (plan : LoaderPlan α) : (plan.applyAll settings).preprocessors =
      plan.preprocessors ++ settings.filterMap preprocessor? :=
  applyAll_appends (·.preprocessors) (fun _ => preprocessors_apply) (fun _ hs he => h (he ▸ hs)) plan

theorem decoders_applyAll {settings : List (Setting α)}
    (h : ∀ registry, .registry registry ∉ settings) (plan : LoaderPlan α) :
    (plan.applyAll settings).registry.decoders =
      plan.registry.decoders ++ settings.filterMap decoder? :=
  applyAll_appends (·.registry.decoders) (fun _ => decoders_apply)
    (fun _ hs registry he => h registry (he ▸ hs)) plan

/-- What each setting leaves alone, all settings together leave alone. -/
theorem applyAll_keeps {γ : Type} (view : LoaderPlan α → γ) {Keeps : Setting α → Prop}
    (hstep : ∀ setting, Keeps setting → ∀ plan, view (plan.apply setting) = view plan) :
    ∀ {settings : List (Setting α)}, (∀ setting ∈ settings, Keeps setting) →
      ∀ plan : LoaderPlan α, view (plan.applyAll settings) = view plan
  | [], _, _ => rfl
  | setting :: settings, h, plan => by
    rw [List.forall_mem_cons] at h
    exact (applyAll_keeps view hstep h.2 (plan.apply setting)).trans (hstep setting h.1 plan)

theorem resourceRoots_applyAll {settings : List (Setting α)}
    (h : ∀ roots, .resourceRoots roots ∉ settings) (plan : LoaderPlan α) :
    (plan.applyAll settings).resourceRoots = plan.resourceRoots :=
  applyAll_keeps (·.resourceRoots) (fun _ => resourceRoots_apply)
    (fun _ hs roots he => h roots (he ▸ hs)) plan

theorem parserFor?_applyAll_of_none {settings : List (Setting α)}
    (h : NoneRegistered settings extension) (plan : LoaderPlan α) :
    (plan.applyAll settings).build.parserFor? extension = plan.build.parserFor? extension :=
  applyAll_keeps (·.build.parserFor? extension) (fun _ => parserFor?_apply_of_not_registers) h plan

/-- The parser for an extension is the one that was registered last for it. -/
theorem parserFor?_of_last {settings : List (Setting α)}
    (h : LastRegistered settings extension parser) (plan : LoaderPlan α) :
    (plan.applyAll settings).build.parserFor? extension = some parser := by
  obtain ⟨before, setting, after, rfl, hp, hafter⟩ := h
  rw [applyAll_split, parserFor?_applyAll_of_none hafter, parserFor?_apply_of_registers hp]

/-! ### The loader of a plan -/

theorem foldl_withSpelling : ∀ (ss : List Spelling) (ctx : Context α),
    ss.foldl Context.withSpelling ctx = { ctx with spellings := ctx.spellings ++ ss }
  | [], ctx => by rw [List.foldl_nil, List.append_nil]
  | s :: ss, ctx => by
    rw [List.foldl_cons, foldl_withSpelling ss, Context.withSpelling, List.append_assoc,
      List.singleton_append]

theorem foldl_withPreprocessor : ∀ (ps : List Preprocessor) (ctx : Context α),
    ps.foldl Context.withPreprocessor ctx = { ctx with preprocessors := ctx.preprocessors ++ ps }
  | [], ctx => by rw [List.foldl_nil, List.append_nil]
  | p :: ps, ctx => by
    rw [List.foldl_cons, foldl_withPreprocessor ps, Context.withPreprocessor, List.append_assoc,
      List.singleton_append]

/-- The context of a loader holds what was planned, in the same order. -/
theorem context_build (plan : LoaderPlan α) : plan.build.context =
    ⟨plan.registry, plan.spellings, plan.preprocessors, Context.defaultDelegationLimit⟩ := by
  rw [build, foldl_withPreprocessor, foldl_withSpelling]
  rfl

end LoaderPlan

/-! ### Parsing -/

namespace Loader

open Setting

variable {loader : Loader α} {files : FileSystem} {source : Source} {outcome : Outcome Node}
  {extension : String} {parser : Parser}

/-- The outcome is what the parser makes of the text of the source. -/
inductive ParsedWith (parser : Parser) (files : FileSystem) (source : Source) :
    Outcome Node → Prop
  | node {text : String} {node : Node} (hread : source.read files = .ok text)
      (hload : parser.load text source.label = .ok node) :
      ParsedWith parser files source (.ok node)
  | unparseable {text : String} {error : ParseError} (hread : source.read files = .ok text)
      (hload : parser.load text source.label = .error error) :
      ParsedWith parser files source
        (.fail (.unparseable source.label error.message error.position))
  | unreadable (hread : ∀ text, source.read files ≠ .ok text) :
      ParsedWith parser files source (.fail (.unknownSource source.label))

/-- The ways of parsing a source: as it is given, by the path of the file, or by the name of
a resource that is found as this source. -/
inductive Parses (loader : Loader α) (files : FileSystem) : Source → Outcome Node → Prop
  | source (source : Source) : Parses loader files source (loader.parseSource files source)
  | path {path : Path} (h : files.isFile path = true) :
      Parses loader files (.file path) (loader.loadNode files path)
  | resource {name : String} {source : Source}
      (h : Source.findResource? files loader.resourceRoots name = some source) :
      Parses loader files source (loader.loadResourceNode files name)

theorem ofPaths_singleton {path : Path} (h : files.isFile path = true) :
    Source.ofPaths files [path] = .ok [.file path] := by
  rw [Source.ofPaths, List.map_singleton, Source.ofPath, if_pos h]
  rfl

theorem resolveResources_singleton {roots : List Path} {name : String}
    (h : Source.findResource? files roots name = some source) :
    Source.resolveResources files roots [name] = .ok [source] := by
  rw [Source.resolveResources, List.map_singleton, Source.ofResource, h]
  rfl

/-- However a source is found, it is parsed in the same way. -/
theorem Parses.eq_parseSource (h : loader.Parses files source outcome) :
    outcome = loader.parseSource files source := by
  cases h with
  | source => rfl
  | path h =>
    rw [loadNode, ofPaths_singleton h]
    rfl
  | resource h =>
    rw [loadResourceNode, resolveResources_singleton h]
    rfl

theorem read_eq_ok_or_unknown (files : FileSystem) (source : Source) :
    (∃ text, source.read files = .ok text) ∨
      source.read files = .fail (.unknownSource source.label) := by
  rw [Source.read]
  split
  · exact Or.inl ⟨_, rfl⟩
  · exact Or.inr rfl

theorem parsedWith_parseSource
    (h : loader.parserFor? (source.extension?.getD "") = some parser) :
    ParsedWith parser files source (loader.parseSource files source) := by
  rw [parseSource, h]
  rcases read_eq_ok_or_unknown files source with ⟨text, hread⟩ | hread
  · cases hload : parser.load text source.label with
    | ok node =>
      simp only [hread, hload]
      exact .node hread hload
    | error error =>
      simp only [hread, hload]
      exact .unparseable hread hload
  · rw [hread]
    exact .unreadable fun text => by simp [hread, Outcome.fail]

theorem parseSource_of_none (h : loader.parserFor? (source.extension?.getD "") = none) :
    loader.parseSource files source =
      .fail (.noParser source.label (source.extension?.getD "")) := by
  rw [parseSource, h]

/-- A parser that is there is not reported as missing. -/
theorem ParsedWith.noParser_not_mem (h : ParsedWith parser files source outcome)
    (label name : String) : .noParser label name ∉ outcome.failures := by
  cases h <;> simp [Outcome.fail]

/-- The parser is looked for under the extension that the path counts as having, in whatever
letter case. -/
theorem parserFor?_extension (h : source.path.CountsAs extension) :
    loader.parserFor? (source.extension?.getD "") = loader.parserFor? extension := by
  rw [Source.extension?, Path.getD_extension? h, parserFor?, Text.asciiLowered_asciiLowered,
    parserFor?]

/-! ### Loaders from settings -/

/-- The loader is what the settings say, with variables from the given environment. -/
structure Follows (environment : String → Option String) (settings : List (Setting α))
    (loader : Loader α) : Prop where
  spellings : loader.context.spellings =
    [FieldName.asDeclared, FieldName.camelCase, FieldName.kebabCase] ++
      settings.filterMap spelling?
  preprocessors_of_kept : .noPreprocessors ∉ settings → loader.context.preprocessors =
    Substitution.preprocessor environment :: settings.filterMap preprocessor?
  preprocessors_of_cleared : ∀ before after, settings = before ++ .noPreprocessors :: after →
    .noPreprocessors ∉ after → loader.context.preprocessors = after.filterMap preprocessor?
  decoders_of_kept : (∀ registry, .registry registry ∉ settings) →
    loader.context.registry.decoders =
      Registry.defaults.decoders ++ settings.filterMap decoder?
  decoders_of_given : ∀ before registry after, settings = before ++ .registry registry :: after →
    (∀ other, .registry other ∉ after) →
      loader.context.registry.decoders = registry.decoders ++ after.filterMap decoder?
  resourceRoots_of_kept : (∀ roots, .resourceRoots roots ∉ settings) → loader.resourceRoots = []
  resourceRoots_of_given : ∀ before roots after,
    settings = before ++ .resourceRoots roots :: after →
      (∀ other, .resourceRoots other ∉ after) → loader.resourceRoots = roots
  /-- The parser that was registered last counts, whatever the letter case. -/
  parserFor?_eq_some_iff : ∀ extension parser,
    loader.parserFor? extension = some parser ↔ LastRegistered settings extension parser
  parserFor?_eq_none_iff : ∀ extension,
    loader.parserFor? extension = none ↔ NoneRegistered settings extension
  /-- Files are parsed by that parser. -/
  parsed : ∀ files source outcome, loader.Parses files source outcome →
    ∀ extension parser, source.path.CountsAs extension →
      LastRegistered settings extension parser → ParsedWith parser files source outcome
  /-- A parser is missing only where none was registered. -/
  noParser_iff : ∀ files source outcome, loader.Parses files source outcome →
    ∀ extension, source.path.CountsAs extension → ∀ label name,
      .noParser label name ∈ outcome.failures ↔ NoneRegistered settings extension ∧
        label = source.label ∧ name = Text.asciiLowered extension

variable (environment : String → Option String) {settings : List (Setting α)}

theorem ofSettings_eq (settings : List (Setting α)) : ofSettings environment settings =
    ((LoaderPlan.standard environment).applyAll settings).build := rfl

theorem parserFor?_ofSettings_of_last (h : LastRegistered settings extension parser) :
    (ofSettings environment settings).parserFor? extension = some parser :=
  LoaderPlan.parserFor?_of_last h (.standard environment)

theorem parserFor?_ofSettings_of_none (h : NoneRegistered settings extension) :
    (ofSettings environment settings).parserFor? extension = none :=
  LoaderPlan.parserFor?_applyAll_of_none h (.standard environment)

theorem noParser_mem_iff (h : (ofSettings environment settings).Parses files source outcome)
    (he : source.path.CountsAs extension) (label name : String) :
    .noParser label name ∈ outcome.failures ↔ NoneRegistered settings extension ∧
      label = source.label ∧ name = Text.asciiLowered extension := by
  rw [h.eq_parseSource]
  rcases noneRegistered_or_last settings extension with hno | ⟨parser, hlast⟩
  · have hnone := (parserFor?_extension he).trans (parserFor?_ofSettings_of_none environment hno)
    rw [parseSource_of_none hnone, Source.extension?, Path.getD_extension? he]
    simp [Outcome.fail, hno]
  · have hsome := (parserFor?_extension he).trans (parserFor?_ofSettings_of_last environment hlast)
    constructor
    · intro hm
      exact absurd hm ((parsedWith_parseSource hsome).noParser_not_mem label name)
    · rintro ⟨hno, -⟩
      exact absurd hno hlast.not_none

/-- **A loader is what the settings say.** Spellings, preprocessors and decoders are those that
were added, in order, behind the ones to start with or since all of them were replaced; of
several parsers for one extension in whatever letter case, and of several lists of roots, the
last one counts. So a file is parsed by the parser that was registered last for its extension,
and that there is no parser is reported exactly if none was registered. -/
theorem follows_ofSettings (settings : List (Setting α)) :
    Follows environment settings (ofSettings environment settings) where
  spellings := by
    rw [ofSettings_eq, LoaderPlan.context_build]
    exact LoaderPlan.spellings_applyAll settings (.standard environment)
  preprocessors_of_kept h := by
    rw [ofSettings_eq, LoaderPlan.context_build]
    exact LoaderPlan.preprocessors_applyAll h (.standard environment)
  preprocessors_of_cleared before after hs h := by
    rw [ofSettings_eq, LoaderPlan.context_build, hs, LoaderPlan.applyAll_split]
    exact LoaderPlan.preprocessors_applyAll h _
  decoders_of_kept h := by
    rw [ofSettings_eq, LoaderPlan.context_build]
    exact LoaderPlan.decoders_applyAll h (.standard environment)
  decoders_of_given before registry after hs h := by
    rw [ofSettings_eq, LoaderPlan.context_build, hs, LoaderPlan.applyAll_split]
    exact LoaderPlan.decoders_applyAll h _
  resourceRoots_of_kept h := LoaderPlan.resourceRoots_applyAll h (.standard environment)
  resourceRoots_of_given before roots after hs h := by
    rw [ofSettings_eq, hs, LoaderPlan.applyAll_split]
    exact LoaderPlan.resourceRoots_applyAll h _
  parserFor?_eq_some_iff extension parser := by
    refine ⟨fun hp => ?_, parserFor?_ofSettings_of_last environment⟩
    rcases noneRegistered_or_last settings extension with hno | ⟨other, hlast⟩
    · rw [parserFor?_ofSettings_of_none environment hno] at hp
      cases hp
    · rw [parserFor?_ofSettings_of_last environment hlast] at hp
      obtain rfl := Option.some.inj hp
      exact hlast
  parserFor?_eq_none_iff extension := by
    refine ⟨fun hp => ?_, parserFor?_ofSettings_of_none environment⟩
    rcases noneRegistered_or_last settings extension with hno | ⟨parser, hlast⟩
    · exact hno
    · rw [parserFor?_ofSettings_of_last environment hlast] at hp
      cases hp
  parsed files source outcome h extension parser he hlast := by
    rw [h.eq_parseSource]
    exact parsedWith_parseSource
      ((parserFor?_extension he).trans (parserFor?_ofSettings_of_last environment hlast))
  noParser_iff _ _ _ h _ he := noParser_mem_iff environment h he

/-- A parser that marks what it has read. -/
def marking (mark : String) : Parser where
  extensions := ["yaml", "yml"]
  load text source := .ok (.string (mark ++ text) ⟨.at 0 0 source, rootPath⟩)

/-- Settings that replace what others set before them, and more behind those. -/
def mixedSettings : List (Setting Unit) :=
  [.parser (marking "a"), .decoder (.builtin .int), .preprocessor fun _ => none,
    .parserFor "YML" (marking "b"), .noPreprocessors, .registry .zero,
    .preprocessor (Substitution.preprocessor fun _ => some "v"), .decoder (.builtin .string)]

/-- A single file, its extension in another letter case than those that were registered. -/
def capitalFile : FileSystem :=
  FileTree.fileSystem (.directory [("App.Yml", .file [104, 105])])

theorem lastRegistered_mixedSettings : LastRegistered mixedSettings "Yml" (marking "b") := by
  refine ⟨mixedSettings.take 3, .parserFor "YML" (marking "b"), mixedSettings.drop 4, rfl,
    .parserFor (Text.asciiLowered_eq_iff.mp (by decide)), ?_⟩
  intro setting hs parser hp
  cases hp with
  | parser => simp [mixedSettings] at hs
  | parserFor => simp [mixedSettings] at hs

/-- Parts that were set in front of the last replacement do not count, and the file is parsed
by the parser that was registered last. -/
theorem follows_mixedSettings :
    LastRegistered mixedSettings "Yml" (marking "b") ∧
      (ofSettings (fun _ => none) mixedSettings).context.preprocessors =
        [Substitution.preprocessor fun _ => some "v"] ∧
      (ofSettings (fun _ => none) mixedSettings).context.registry.decoders =
        [.builtin .string] ∧
      (ofSettings (fun _ => none) mixedSettings).parserFor? "Yml" = some (marking "b") ∧
      capitalFile.isFile ⟨"App.Yml"⟩ = true ∧
      ParsedWith (marking "b") capitalFile (.file ⟨"App.Yml"⟩)
        ((ofSettings (fun _ => none) mixedSettings).loadNode capitalFile ⟨"App.Yml"⟩) := by
  have hlast := lastRegistered_mixedSettings
  have hfollows := follows_ofSettings (fun _ => none) mixedSettings
  have hcounts : (⟨"App.Yml"⟩ : Path).CountsAs "Yml" :=
    Or.inl ⟨['A', 'p', 'p'], by decide, by decide, by decide⟩
  refine ⟨hlast, hfollows.preprocessors_of_cleared (mixedSettings.take 4) (mixedSettings.drop 5)
      rfl (by simp [mixedSettings]),
    hfollows.decoders_of_given (mixedSettings.take 5) .zero (mixedSettings.drop 6) rfl
      (by simp [mixedSettings]),
    (hfollows.parserFor?_eq_some_iff _ _).mpr hlast, rfl, ?_⟩
  exact hfollows.parsed capitalFile _ _ (.path rfl) _ _ hcounts hlast

end Loader
end TypedConfig
