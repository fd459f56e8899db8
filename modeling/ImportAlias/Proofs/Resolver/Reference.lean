import ImportAlias.Proofs.Resolver.Build
import ImportAlias.Proofs.Resolver.History

/-!
# The path that options assign to a specifier

`PathOptions.target?` says in one expression over the declared options what a specifier stands
for: no compiled table, no stage, no cache. A resolver built from the options gives exactly these
answers, in whatever order and however often it is asked.

The proof has three layers. The table is compiled entry by entry (`first?_compiled`); each of the
three strategies then gives the reference answer and never breaks off (`answer_of_strategy?`); and
a chain over a strategy answers what the strategy says, whatever was looked up before
(`Resolver.answer_after`).
-/

namespace ImportAlias

namespace PathOptions

/-- The path that one declared entry gives for `id`: the first of its templates, seen from `base`,
that fills to a non-empty text, provided that the key matches. -/
def entryPath? (platform : Platform) (base id : Text) (entry : Text × List Text) : Option Text :=
  ((Pattern.ofKey entry.1).captures? id).bind fun captures =>
    (entry.2.map fun template =>
      Template.fill id captures (Path.anchor platform base template)).find? (· ≠ [])

/-- **The reference answer.** An absolute or virtual specifier has no path. Any other has the path
of the first declared entry that gives one, templates being seen from the `baseUrl`, or from the
directory of the configuration file without one. Failing that it is joined to the `baseUrl`, if
there is one, unless there is a table and the specifier starts with `@` or holds no `.`. -/
def target? (platform : Platform) (configFile : Text) (o : PathOptions) (id : Text) :
    Option Text :=
  if Path.isAbsolute platform id ∨ '\x00' ∈ id then none
  else
    let dir := Path.dirname platform configFile
    let base := (o.baseUrl.filter (· ≠ [])).map (Path.anchor platform dir)
    match o.entries.findSome? (entryPath? platform (base.getD dir) id), base with
    | some path, _ => some path
    | none, none => none
    | none, some dir =>
      if o.paths.isNone ∨ id.head? ≠ some '@' ∧ '.' ∈ id then some (Path.join dir id) else none

section Layers

variable {platform : Platform} {configFile : Text} {o : PathOptions} {id : Text}

theorem pathFor?_compiled (platform : Platform) (base id : Text) (entry : Text × List Text) :
    (Mapping.compiled platform base entry).pathFor? id = entryPath? platform base id entry := by
  unfold Mapping.pathFor? Mapping.compiled entryPath?
  cases (Pattern.ofKey entry.1).captures? id with
  | none => rfl
  | some captures => simp [Function.comp_def]

/-- The first compiled entry with a path is the first declared one with a path. -/
theorem first?_compiled (platform : Platform) (base id : Text) (entries : List (Text × List Text)) :
    (Mapping.first? (entries.map (Mapping.compiled platform base)) id).map Prod.snd =
      entries.findSome? (entryPath? platform base id) := by
  induction entries with
  | nil => rfl
  | cons entry entries ih =>
    unfold Mapping.first? at ih ⊢
    rw [List.map_cons, List.findSome?_cons, List.findSome?_cons, pathFor?_compiled]
    cases entryPath? platform base id entry with
    | none => exact ih
    | some path => rfl

theorem isPackageName_eq_false_iff (id : Text) :
    Specifier.isPackageName id = false ↔ id.head? ≠ some '@' ∧ '.' ∈ id := by
  simp [Specifier.isPackageName]

/-- The reference answer to a specifier that is neither absolute nor virtual. -/
theorem target?_of_not_bypassed (ha : ¬Path.isAbsolute platform id) (hv : '\x00' ∉ id) :
    o.target? platform configFile id =
      match o.entries.findSome? (entryPath? platform (o.templateDir platform configFile) id),
        o.joinDir? platform configFile with
      | some path, _ => some path
      | none, none => none
      | none, some dir =>
        if o.paths.isNone ∨ id.head? ≠ some '@' ∧ '.' ∈ id then some (Path.join dir id)
        else none := by
  rw [target?, if_neg (not_or.mpr ⟨ha, hv⟩)]
  rfl

/-- The reference answer in terms of the compiled entries. -/
theorem target?_eq (ha : ¬Path.isAbsolute platform id) (hv : '\x00' ∉ id) :
    o.target? platform configFile id =
      match (Mapping.first? (o.compiled platform configFile) id).map Prod.snd,
        o.joinDir? platform configFile with
      | some path, _ => some path
      | none, none => none
      | none, some dir =>
        if o.paths.isNone ∨ id.head? ≠ some '@' ∧ '.' ∈ id then some (Path.join dir id)
        else none := by
  rw [compiled, first?_compiled, target?_of_not_bypassed ha hv]

/-- Without a strategy there is no path. -/
theorem target?_of_strategy?_eq_none (h : o.strategy? platform configFile = none) :
    o.target? platform configFile id = none := by
  by_cases hbypass : Path.isAbsolute platform id ∨ '\x00' ∈ id
  · rw [target?, if_pos hbypass]
  · rw [target?_eq (fun ha => hbypass (.inl ha)) fun hv => hbypass (.inr hv)]
    unfold strategy? at h
    split at h <;> cases h
    rename_i hp hb
    rw [hb, compiled, entries, hp]
    rfl

/-- The strategy of the options gives the reference answer; in particular it never breaks off. -/
theorem answer_of_strategy? {f : Strategy} (h : o.strategy? platform configFile = some f)
    (ha : ¬Path.isAbsolute platform id) (hv : '\x00' ∉ id) :
    (f id).answer = .ok (o.target? platform configFile id) := by
  rw [target?_eq ha hv]
  unfold strategy? at h
  split at h <;> cases h <;> rename_i hp hb
  · rw [hb, compiled, entries, hp]
    simp [Strategy.baseUrl, Mapping.first?]
  · rw [hb, Strategy.paths]
    cases Mapping.first? (o.compiled platform configFile) id <;> rfl
  · rw [hb, hp, Strategy.pathsThenBaseUrl]
    cases Mapping.first? (o.compiled platform configFile) id with
    | some found => rfl
    | none =>
      cases hk : Specifier.isPackageName id with
      | true =>
        have hn : ¬(id.head? ≠ some '@' ∧ '.' ∈ id) := by
          rw [← isPackageName_eq_false_iff, hk]
          simp
        simp [hn]
      | false => simp [(isPackageName_eq_false_iff id).mp hk]

/-! ### Where a path comes from -/

/-- The path is what a template of a declared entry gives: the entry's key matches `id`, and the
template, seen from the directory that templates are seen from, is filled with the captures. -/
def IsSubstitution (platform : Platform) (configFile : Text) (o : PathOptions)
    (id path : Text) : Prop :=
  ∃ entry ∈ o.entries, ∃ template ∈ entry.2, ∃ captures,
    (Pattern.ofKey entry.1).captures? id = some captures ∧
      path = Template.fill id captures
        (Path.anchor platform (o.templateDir platform configFile) template)

theorem entryPath?_eq_some {base path : Text} {entry : Text × List Text}
    (h : entryPath? platform base id entry = some path) :
    ∃ template ∈ entry.2, ∃ captures, (Pattern.ofKey entry.1).captures? id = some captures ∧
      path = Template.fill id captures (Path.anchor platform base template) := by
  obtain ⟨captures, hcaptures, hfind⟩ := Option.bind_eq_some_iff.mp h
  obtain ⟨template, htemplate, hpath⟩ := List.mem_map.mp (List.mem_of_find?_eq_some hfind)
  exact ⟨template, htemplate, captures, hcaptures, hpath.symm⟩

/-- A path comes from the table or from the `baseUrl`. -/
theorem target?_eq_some {path : Text} (h : o.target? platform configFile id = some path) :
    o.IsSubstitution platform configFile id path ∨
      ∃ dir, o.joinDir? platform configFile = some dir ∧ path = Path.join dir id := by
  by_cases hbypass : Path.isAbsolute platform id ∨ '\x00' ∈ id
  · rw [target?, if_pos hbypass] at h
    cases h
  obtain ⟨ha, hv⟩ := not_or.mp hbypass
  rw [target?_of_not_bypassed ha hv] at h
  cases hfound : o.entries.findSome?
      (entryPath? platform (o.templateDir platform configFile) id) with
  | some found =>
    rw [hfound] at h
    cases h
    obtain ⟨entry, hentry, hpath⟩ := List.exists_of_findSome?_eq_some hfound
    exact .inl ⟨entry, hentry, entryPath?_eq_some hpath⟩
  | none =>
    cases hdir : o.joinDir? platform configFile with
    | none =>
      rw [hfound, hdir] at h
      cases h
    | some dir =>
      rw [hfound, hdir] at h
      obtain ⟨-, hjoin⟩ := Option.ite_none_right_eq_some.mp h
      cases hjoin
      exact .inr ⟨dir, rfl, rfl⟩

end Layers

end PathOptions

namespace Resolver

variable {platform : Platform} {configFile : Text} {options : PathOptions} {r : Resolver}

/-- After any history, a built resolver gives the reference answer. -/
theorem answer_of_build (h : build platform configFile options = .ok r) (before : List Text)
    (id : Text) :
    ((r.after before).resolve id).answer = .ok (options.target? platform configFile id) := by
  have hr := build_eq_ok h
  cases hs : options.strategy? platform configFile with
  | none =>
    have hnil : r.stages = [] := by rw [hr, hs]; rfl
    rw [after_of_nil hnil, resolve_of_nil hnil, PathOptions.target?_of_strategy?_eq_none hs]
  | some f =>
    have hstages : r.stages = [{ strategy := f }] := by rw [hr, hs]; rfl
    have hplatform : r.platform = platform := by rw [hr]
    rw [answer_after hstages, hplatform]
    by_cases ha : Path.isAbsolute platform id
    · simp [ha, PathOptions.target?]
    · rw [if_neg ha, Stage.uncached]
      by_cases hv : '\x00' ∈ id
      · simp [Specifier.isVirtual, hv, PathOptions.target?, Except.map]
      · rw [PathOptions.answer_of_strategy? hs ha hv]
        simp [Specifier.isVirtual, hv, Except.map]

theorem target?_of_answer (h : build platform configFile options = .ok r) {before : List Text}
    {id path : Text} (hpath : ((r.after before).resolve id).answer = .ok (some path)) :
    options.target? platform configFile id = some path :=
  Except.ok.inj ((answer_of_build h before id).symm.trans hpath)

/-- **Look-ups follow the reference.** A resolver built from options answers every list of
look-ups with the reference answers, each independent of what was looked up before, and it has a
stage exactly when the options declare something. -/
theorem lookups_eq_target (h : build platform configFile options = .ok r) :
    (∀ ids, (r.resolveAll ids).answer = .ok (ids.map (options.target? platform configFile))) ∧
    (∀ before id,
      ((r.after before).resolve id).answer = .ok (options.target? platform configFile id)) ∧
    (r.hasStages = true ↔ options.isEmpty = false) := by
  refine ⟨fun ids => answer_resolveAll ids r (answer_of_build h), answer_of_build h, ?_⟩
  rw [hasStages_of_build h, Bool.not_eq_true']

/-- Both options together: a mapped specifier, one that is joined, a package, an absolute and a
virtual specifier, and the first one again. -/
theorem lookups_eq_target_mixed :
    let options : PathOptions :=
      { baseUrl := some "src".toList
        paths := some (.ofList [("@/*".toList, ["lib/*".toList])]) }
    ∃ r, build .posix "/p/t.json".toList options = .ok r ∧
      (r.resolveAll
        ["@/x".toList, "a.js".toList, "react".toList, "/x".toList, ['\x00'], "@/x".toList]).answer =
        .ok [some "/p/src/lib/x".toList, some "/p/src/a.js".toList, none, none, none,
          some "/p/src/lib/x".toList] := by
  intro options
  obtain ⟨r, h⟩ : ∃ r, build .posix "/p/t.json".toList options = .ok r := ⟨_, rfl⟩
  exact ⟨r, h, ((lookups_eq_target h).1 _).trans (by decide +kernel)⟩

end Resolver

end ImportAlias
