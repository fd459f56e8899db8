import ImportAlias.Proofs.Path.Conventions
import ImportAlias.Proofs.Resolver.Reference

/-!
# Resolvers under the two conventions

What a path convention decides about a resolver is settled when it is built: the directory of the
configuration file, the `baseUrl` and the templates are anchored under it. After that it is only
asked which specifiers are absolute. So two statements about anchoring become statements about
resolvers.

* Where neither the configuration nor the specifiers have a backslash or a colon, the convention
  makes no difference (`build_parity`). The keys may hold anything, since no convention reads them.
* On Windows it makes no difference which slash the configuration is written with (`build_slashed`),
  and no backslash is left in what is built.
-/

namespace ImportAlias

open ImportAlias.Path (IsPlain slash)

/-! ### Under the other convention -/

namespace Resolver

/-- The resolver with its look-ups under another convention. -/
def onPlatform (platform : Platform) (r : Resolver) : Resolver := { r with platform }

section OnPlatform

variable {platform : Platform} {r : Resolver} {id : Text}

/-- The convention shows in a look-up only by whether the specifier is absolute. -/
theorem resolve_onPlatform (h : Path.isAbsolute platform id = Path.isAbsolute r.platform id) :
    (r.onPlatform platform).resolve id =
      { answer := (r.resolve id).answer, events := (r.resolve id).events
        state := (r.resolve id).state.onPlatform platform } := by
  have habsolute : Path.isAbsolute (r.onPlatform platform).platform id =
      Path.isAbsolute r.platform id := h
  rw [resolve, resolve, habsolute]
  split <;> rfl

theorem resolveAll_onPlatform {ids : List Text}
    (h : ∀ id ∈ ids, Path.isAbsolute platform id = Path.isAbsolute r.platform id) :
    (r.onPlatform platform).resolveAll ids =
      { answer := (r.resolveAll ids).answer, events := (r.resolveAll ids).events
        state := (r.resolveAll ids).state.onPlatform platform } := by
  induction ids generalizing r with
  | nil => rfl
  | cons id ids ih =>
    have hrest : ∀ other ∈ ids, Path.isAbsolute platform other =
        Path.isAbsolute (r.resolve id).state.platform other := by
      intro other hother
      rw [platform_resolve]
      exact h other (List.mem_cons_of_mem id hother)
    simp only [resolveAll, resolve_onPlatform (h id List.mem_cons_self)]
    cases (r.resolve id).answer with
    | error breakdown => rfl
    | ok path => rw [ih hrest]

end OnPlatform

end Resolver

namespace PathOptions

/-- What the options say of paths is plain: the `baseUrl` and the templates, not the keys. -/
structure IsPlain (o : PathOptions) : Prop where
  baseUrl : ∀ url, o.baseUrl = some url → Path.IsPlain url
  templates : ∀ entry ∈ o.entries, ∀ template ∈ entry.2, Path.IsPlain template

namespace IsPlain

variable {configFile : Text} {o : PathOptions}

theorem declaredBaseUrl (h : o.IsPlain) {url : Text} (hurl : o.declaredBaseUrl = some url) :
    Path.IsPlain url :=
  h.baseUrl url (Option.filter_eq_some_iff.mp hurl).1

theorem joinDir?_eq (h : o.IsPlain) (hc : Path.IsPlain configFile) :
    o.joinDir? .windows configFile = o.joinDir? .posix configFile := by
  rw [joinDir?, joinDir?, hc.dirname_eq]
  exact Option.map_congr fun url hurl => hc.dirname.anchor_eq (h.declaredBaseUrl hurl)

theorem templateDir_eq (h : o.IsPlain) (hc : Path.IsPlain configFile) :
    o.templateDir .windows configFile = o.templateDir .posix configFile := by
  rw [templateDir, templateDir, h.joinDir?_eq hc, hc.dirname_eq]

theorem templateDir (h : o.IsPlain) (hc : Path.IsPlain configFile) :
    Path.IsPlain (o.templateDir .posix configFile) := by
  rw [PathOptions.templateDir, joinDir?]
  cases hurl : o.declaredBaseUrl with
  | none => exact hc.dirname
  | some url => exact hc.dirname.anchor (h.declaredBaseUrl hurl)

/-- The templates of plain options are anchored alike. -/
theorem compiled_eq (h : o.IsPlain) (hc : Path.IsPlain configFile) :
    o.compiled .windows configFile = o.compiled .posix configFile := by
  rw [compiled, compiled, h.templateDir_eq hc]
  refine List.map_congr_left fun entry hentry => ?_
  have htemplates : entry.2.map (Path.anchor .windows (o.templateDir .posix configFile)) =
      entry.2.map (Path.anchor .posix (o.templateDir .posix configFile)) :=
    List.map_congr_left fun template ht =>
      (h.templateDir hc).anchor_eq (h.templates entry hentry template ht)
  simp only [Mapping.compiled, htemplates]

theorem strategy?_eq (h : o.IsPlain) (hc : Path.IsPlain configFile) :
    o.strategy? .windows configFile = o.strategy? .posix configFile := by
  rw [strategy?, strategy?, h.joinDir?_eq hc, h.compiled_eq hc]

/-- **Building plain options.** The two resolvers differ in nothing but their convention. -/
theorem build_eq (h : o.IsPlain) (hc : Path.IsPlain configFile) :
    Resolver.build .windows configFile o =
      (Resolver.build .posix configFile o).map (Resolver.onPlatform .windows) := by
  rw [Resolver.build_eq, Resolver.build_eq, h.strategy?_eq hc, h.joinDir?_eq hc, h.compiled_eq hc]
  cases o.entries.find? fun entry => (Pattern.ofKey entry.1).tooLarge <;> rfl

end IsPlain

end PathOptions

namespace Resolver

/-- **Parity of the conventions.** When the path of the configuration file, the `baseUrl` and the
templates have neither a backslash nor a colon, building fails under both conventions and on the
same key, or under neither. In that case the `baseUrl` and the compiled entries are the same, and
so are the answers to every list of look-ups whose specifiers have neither character. -/
theorem build_parity {configFile : Text} {options : PathOptions} (hc : IsPlain configFile)
    (ho : options.IsPlain) :
    (∃ e, build .posix configFile options = .error e ∧
      build .windows configFile options = .error e) ∨
    ∃ r r', build .posix configFile options = .ok r ∧ build .windows configFile options = .ok r' ∧
      r'.baseUrl = r.baseUrl ∧ r'.mappings = r.mappings ∧
      ∀ ids, (∀ id ∈ ids, IsPlain id) → ∃ paths,
        (r.resolveAll ids).answer = .ok paths ∧ (r'.resolveAll ids).answer = .ok paths := by
  have hbuild := ho.build_eq hc
  cases hposix : build .posix configFile options with
  | error e =>
    rw [hposix] at hbuild
    exact .inl ⟨e, rfl, hbuild⟩
  | ok r =>
    rw [hposix] at hbuild
    refine .inr ⟨r, r.onPlatform .windows, rfl, hbuild, rfl, rfl, fun ids hids => ?_⟩
    have hplatform : r.platform = .posix := by rw [build_eq_ok hposix]
    have habsolute : ∀ id ∈ ids, Path.isAbsolute .windows id = Path.isAbsolute r.platform id := by
      intro id hid
      rw [hplatform]
      exact (hids id hid).isAbsolute_eq
    have hanswer := answer_resolveAll ids r (answer_of_build hposix)
    refine ⟨_, hanswer, ?_⟩
    rw [resolveAll_onPlatform habsolute]
    exact hanswer

/-- A `baseUrl` that climbs, a key with a drive and a backslash in it, and specifiers that are
mapped, joined and absolute. -/
theorem build_parity_climbing :
    let options : PathOptions :=
      { baseUrl := some ".././/src".toList
        paths := some (.ofList [("C:\\*".toList, ["x".toList]), ("@/*".toList, ["lib/*".toList])]) }
    IsPlain "/p/q/t.json".toList ∧ options.IsPlain ∧
      ∃ r r', build .posix "/p/q/t.json".toList options = .ok r ∧
        build .windows "/p/q/t.json".toList options = .ok r' ∧
        r'.baseUrl = some "/p/src".toList ∧
        (r'.resolveAll ["@/../a".toList, "b.js".toList, "/c".toList]).answer =
          .ok [some "/p/src/lib/../a".toList, some "/p/src/b.js".toList, none] := by
  intro options
  have hc : IsPlain "/p/q/t.json".toList := by decide
  have ho : options.IsPlain := ⟨by rintro url ⟨⟩; decide, by decide +kernel⟩
  obtain ⟨r, hr⟩ : ∃ r, build .posix "/p/q/t.json".toList options = .ok r := ⟨_, rfl⟩
  rcases build_parity hc ho with ⟨e, he, -⟩ | ⟨r, r', hr, hr', hbase, -, hanswers⟩
  · rw [hr] at he
    cases he
  obtain ⟨paths, hpaths, hpaths'⟩ :=
    hanswers ["@/../a".toList, "b.js".toList, "/c".toList] (by decide)
  have hexpected := (answer_resolveAll _ r (answer_of_build hr)).symm.trans hpaths
  refine ⟨hc, ho, r, r', hr, hr', ?_, hpaths'.trans (hexpected.symm.trans (by decide +kernel))⟩
  rw [hbase, build_eq_ok hr]
  decide +kernel

end Resolver

/-! ### Written with the other slash -/

/-- The map with another value for each key. -/
def OrderedMap.mapValues {α β : Type} (f : α → β) (m : OrderedMap α) : OrderedMap β where
  entries := m.entries.map fun entry => (entry.1, f entry.2)
  nodup_keys := by
    rw [List.map_map]
    exact m.nodup_keys

namespace PathOptions

section Templates

variable {o o' : PathOptions} {f : Text → Text}
  (h : o'.paths = o.paths.map (OrderedMap.mapValues (List.map f)))

include h

theorem entries_of_paths : o'.entries = o.entries.map fun entry => (entry.1, entry.2.map f) := by
  cases hp : o.paths with
  | none => simp [entries, h, hp]
  | some table => simp [entries, h, hp, OrderedMap.mapValues]

/-- The templates have no part in which key is too large. -/
theorem find?_tooLarge_of_paths :
    (o'.entries.find? fun entry => (Pattern.ofKey entry.1).tooLarge) =
      (o.entries.find? fun entry => (Pattern.ofKey entry.1).tooLarge).map
        fun entry => (entry.1, entry.2.map f) := by
  rw [entries_of_paths h, List.find?_map]
  rfl

end Templates

/-- The options with every backslash of the `baseUrl` and the templates turned into `/`. -/
def slashed (o : PathOptions) : PathOptions where
  baseUrl := o.baseUrl.map slash
  paths := o.paths.map (OrderedMap.mapValues (List.map slash))

section Slashed

variable (configFile : Text) (o : PathOptions)

theorem declaredBaseUrl_slashed : o.slashed.declaredBaseUrl = o.declaredBaseUrl.map slash := by
  rw [declaredBaseUrl, slashed, Option.filter_map, declaredBaseUrl]
  congr 2
  funext url
  simp

theorem joinDir?_slashed : o.slashed.joinDir? .windows (slash configFile) =
    o.joinDir? .windows configFile := by
  rw [joinDir?, declaredBaseUrl_slashed, Path.dirname_slash, Option.map_map, joinDir?]
  exact Option.map_congr fun url _ => Path.anchor_congr rfl (Path.slash_slash url)

theorem templateDir_slashed : o.slashed.templateDir .windows (slash configFile) =
    o.templateDir .windows configFile := by
  rw [templateDir, joinDir?_slashed, Path.dirname_slash, templateDir]

theorem compiled_slashed : o.slashed.compiled .windows (slash configFile) =
    o.compiled .windows configFile := by
  rw [compiled, templateDir_slashed, entries_of_paths rfl, List.map_map, compiled]
  refine List.map_congr_left fun entry _ => ?_
  have htemplates (dir : Text) : (entry.2.map slash).map (Path.anchor .windows dir) =
      entry.2.map (Path.anchor .windows dir) := by
    rw [List.map_map]
    exact List.map_congr_left fun template _ => Path.anchor_congr rfl (Path.slash_slash template)
  simp only [Function.comp_apply, Mapping.compiled, htemplates]

theorem strategy?_slashed : o.slashed.strategy? .windows (slash configFile) =
    o.strategy? .windows configFile := by
  rw [strategy?, joinDir?_slashed, compiled_slashed, strategy?]
  cases hp : o.paths <;> cases o.joinDir? .windows configFile <;> simp [slashed, hp]

end Slashed

end PathOptions

namespace Resolver

/-- **Either slash will do.** On Windows a configuration file and options give the same resolver,
or the same error, as they do with every backslash of the path, the `baseUrl` and the templates
turned into `/`. So the `baseUrl`, the compiled entries and the answers to all look-ups are the
same, and neither the `baseUrl` nor a template that was compiled has a backslash. -/
theorem build_slashed (configFile : Text) (options : PathOptions) :
    build .windows (slash configFile) options.slashed = build .windows configFile options ∧
      ∀ r, build .windows configFile options = .ok r →
        (∀ dir, r.baseUrl = some dir → '\\' ∉ dir) ∧
          ∀ m ∈ r.mappings, ∀ template ∈ m.templates, '\\' ∉ template := by
  refine ⟨?_, fun r h => ⟨fun dir hdir => ?_, fun m hm template ht => ?_⟩⟩
  · have hpaths : options.slashed.paths =
        options.paths.map (OrderedMap.mapValues (List.map slash)) := rfl
    rw [build_eq, build_eq, PathOptions.strategy?_slashed, PathOptions.joinDir?_slashed,
      PathOptions.compiled_slashed, PathOptions.find?_tooLarge_of_paths hpaths]
    cases options.entries.find? fun entry => (Pattern.ofKey entry.1).tooLarge <;> rfl
  · rw [build_eq_ok h] at hdir
    obtain ⟨url, -, rfl⟩ := Option.map_eq_some_iff.mp hdir
    exact Path.not_mem_anchor _ url
  · rw [build_eq_ok h] at hm
    obtain ⟨declared, rfl⟩ := PathOptions.exists_anchor_of_mem_compiled hm ht
    exact Path.not_mem_anchor _ declared

/-- A `baseUrl` that begins with a backslash is put on the drive of the configuration file, however
the file is written. -/
theorem build_slashed_drive :
    let options : PathOptions :=
      { baseUrl := some "\\src\\.\\a".toList
        paths := some (.ofList [("@\\*".toList, ["..\\lib\\*".toList])]) }
    ∃ r, build .windows "C:\\p\\t.json".toList options = .ok r ∧
      build .windows "C:/p/t.json".toList
        { baseUrl := some "/src/./a".toList
          paths := some (.ofList [("@\\*".toList, ["../lib/*".toList])]) } = .ok r ∧
      r.baseUrl = some "C:/src/a".toList ∧ '\\' ∉ "C:/src/a".toList ∧
      r.mappings.map (·.templates) = [["C:/src/lib/*".toList]] := by
  intro options
  obtain ⟨r, h⟩ : ∃ r, build .windows "C:\\p\\t.json".toList options = .ok r := ⟨_, rfl⟩
  obtain ⟨hslashed, hseparators⟩ := build_slashed "C:\\p\\t.json".toList options
  have hbase : r.baseUrl = some "C:/src/a".toList := by
    rw [build_eq_ok h]
    decide +kernel
  refine ⟨r, h, hslashed.trans h, hbase, (hseparators r h).1 _ hbase, ?_⟩
  rw [build_eq_ok h]
  decide +kernel

end Resolver

end ImportAlias
