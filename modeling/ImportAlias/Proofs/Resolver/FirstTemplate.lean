import ImportAlias.Proofs.Resolver.Absolute

/-!
# The template that decides

An entry may list several templates, and a specifier may match several entries. The look-up is
written as a search through both: a template that fills to nothing passes the question on to the
next one, and an entry without a path passes it on to the next entry.

Below an absolute configuration file this search never goes far. Every template is anchored there,
so it begins with the separator of the root and fills to a text that does. The first template of an
entry therefore answers for it (`pathFor?_of_head?`), and the first entry that matches and has a
template answers for the table (`first?_append`). What else is declared cannot be told from any
answer (`answers_of_first_template`).
-/

namespace ImportAlias

namespace Mapping

/-- An entry gives no path when its key does not match or when it has no templates. -/
theorem pathFor?_eq_none {m : Mapping} {id : Text}
    (h : m.pattern.captures? id = none ∨ m.templates = []) : m.pathFor? id = none := by
  unfold pathFor?
  rcases h with h | h
  · rw [h]
  · rw [h]
    cases m.pattern.captures? id <;> rfl

/-- The first entry with a path decides, whatever comes behind it. -/
theorem first?_append {earlier : List Mapping} {m : Mapping} {id path : Text}
    (hearlier : ∀ m' ∈ earlier, m'.pathFor? id = none) (hm : m.pathFor? id = some path)
    (later : List Mapping) : first? (earlier ++ m :: later) id = some (m, path) := by
  have hnone : first? earlier id = none :=
    List.findSome?_eq_none_iff.mpr fun m' hm' => by rw [hearlier m' hm', Option.map_none]
  unfold first? at hnone ⊢
  rw [List.findSome?_append, hnone, Option.none_or, List.findSome?_cons, hm, Option.map_some]

end Mapping

namespace PathOptions

/-- What the entries of a table are when all templates but the first of each are left out. -/
def firstTemplates (table : PathsTable) : List (Text × Option Text) :=
  table.entries.map fun entry => (entry.1, entry.2.head?)

/-- The options differ at most in the templates behind the first of each entry. -/
structure SameFirsts (o o' : PathOptions) : Prop where
  baseUrl_eq : o.baseUrl = o'.baseUrl
  paths_eq : o.paths.map firstTemplates = o'.paths.map firstTemplates

section Firsts

variable {o o' : PathOptions} {configFile : Text}

/-- An entry seen from an absolute directory gives what its first template fills to. -/
theorem entryPath?_eq {base : Text} (hbase : base.head? = some '/') (id : Text)
    (entry : Text × List Text) :
    entryPath? .posix base id entry =
      ((Pattern.ofKey entry.1).captures? id).bind fun captures =>
        entry.2.head?.map fun template =>
          Template.fill id captures (Path.anchor .posix base template) := by
  rw [← pathFor?_compiled]
  cases hcaptures : (Pattern.ofKey entry.1).captures? id with
  | none => exact Mapping.pathFor?_eq_none (.inl hcaptures)
  | some captures =>
    obtain ⟨key, templates⟩ := entry
    cases templates with
    | nil => exact Mapping.pathFor?_eq_none (.inr rfl)
    | cons template later =>
      exact Mapping.pathFor?_of_head? rfl (Path.head?_anchor hbase template) hcaptures

namespace SameFirsts

variable (h : SameFirsts o o')

include h

theorem isNone_paths : o.paths.isNone = o'.paths.isNone := by
  have hmap := congrArg Option.isNone h.paths_eq
  rwa [Option.isNone_map, Option.isNone_map] at hmap

theorem firsts_entries :
    (o.entries.map fun entry => (entry.1, entry.2.head?)) =
      o'.entries.map fun entry => (entry.1, entry.2.head?) := by
  have hentries (options : PathOptions) :
      (options.entries.map fun entry => (entry.1, entry.2.head?)) =
        (options.paths.map firstTemplates).getD [] := by
    cases hpaths : options.paths <;> simp [entries, hpaths, firstTemplates]
  rw [hentries, hentries, h.paths_eq]

/-- The keys are the same, so a resolver can be built from both options or from neither. -/
theorem exists_build {r : Resolver} (hbuild : Resolver.build .posix configFile o = .ok r) :
    ∃ r', Resolver.build .posix configFile o' = .ok r' := by
  rw [Resolver.exists_build_iff]
  intro entry hentry
  have hsmall := Resolver.exists_build_iff.mp ⟨r, hbuild⟩
  have hmem : (entry.1, entry.2.head?) ∈ o.entries.map fun entry => (entry.1, entry.2.head?) :=
    h.firsts_entries ▸ List.mem_map_of_mem hentry
  obtain ⟨first, hfirst, heq⟩ := List.mem_map.mp hmem
  rw [← (Prod.mk.inj heq).1]
  exact hsmall first hfirst

theorem joinDir?_eq : o.joinDir? .posix configFile = o'.joinDir? .posix configFile := by
  rw [joinDir?, joinDir?, declaredBaseUrl, declaredBaseUrl, h.baseUrl_eq]

theorem templateDir_eq : o.templateDir .posix configFile = o'.templateDir .posix configFile := by
  rw [templateDir, templateDir, h.joinDir?_eq]

/-- **The reference answer is made of first templates.** -/
theorem target?_eq (hc : configFile.head? = some '/') (id : Text) :
    o.target? .posix configFile id = o'.target? .posix configFile id := by
  by_cases hbypass : Path.isAbsolute .posix id ∨ '\x00' ∈ id
  · rw [target?, target?, if_pos hbypass, if_pos hbypass]
  obtain ⟨ha, hv⟩ := not_or.mp hbypass
  have hdir : (o'.templateDir .posix configFile).head? = some '/' := head?_templateDir hc
  have hfound (entries : List (Text × List Text)) :
      entries.findSome? (entryPath? .posix (o'.templateDir .posix configFile) id) =
        (entries.map fun entry => (entry.1, entry.2.head?)).findSome? fun first =>
          ((Pattern.ofKey first.1).captures? id).bind fun captures =>
            first.2.map fun template =>
              Template.fill id captures
                (Path.anchor .posix (o'.templateDir .posix configFile) template) := by
    rw [List.findSome?_map]
    exact congrArg (entries.findSome? ·) (funext (entryPath?_eq hdir id))
  rw [target?_of_not_bypassed ha hv, target?_of_not_bypassed ha hv, h.joinDir?_eq,
    h.templateDir_eq, h.isNone_paths, hfound, hfound, h.firsts_entries]

end SameFirsts

end Firsts

end PathOptions

namespace Resolver

/-- **Only first templates count.** Let the configuration file have an absolute name. An entry with
a template gives what its first template fills to for every specifier that its key matches. Options
that differ only in the templates behind the first of each entry give resolvers with the same
answers, whatever was looked up before. And the first entry that matches and has a template
settles a specifier, whichever entries come behind it. -/
theorem answers_of_first_template {configFile : Text} {options : PathOptions} {r : Resolver}
    (h : build .posix configFile options = .ok r) (hc : Path.isAbsolute .posix configFile) :
    (∀ m ∈ r.mappings, ∀ template later, m.templates = template :: later →
      ∀ id captures, m.pattern.captures? id = some captures →
        m.pathFor? id = some (Template.fill id captures template)) ∧
    (∀ options', options.SameFirsts options' →
      ∃ r', build .posix configFile options' = .ok r' ∧
        ∀ before before' id,
          ((r.after before).resolve id).answer = ((r'.after before').resolve id).answer) ∧
    (∀ earlier m later, r.mappings = earlier ++ m :: later →
      ∀ template others, m.templates = template :: others →
        ∀ id captures, m.pattern.captures? id = some captures →
          (∀ m' ∈ earlier, m'.pattern.captures? id = none ∨ m'.templates = []) →
          ¬Path.isAbsolute .posix id → '\x00' ∉ id →
            ∀ before, ((r.after before).resolve id).answer =
              .ok (some (Template.fill id captures template))) := by
  have hhead : configFile.head? = some '/' := Path.isAbsolute_posix_iff.mp hc
  have hmappings : r.mappings = options.compiled .posix configFile := by rw [build_eq_ok h]
  have hfirst : ∀ m ∈ r.mappings, ∀ template later, m.templates = template :: later →
      ∀ id captures, m.pattern.captures? id = some captures →
        m.pathFor? id = some (Template.fill id captures template) := by
    intro m hm template later htemplates id captures hcaptures
    refine Mapping.pathFor?_of_head? htemplates ?_ hcaptures
    exact PathOptions.head?_template hhead (hmappings ▸ hm) (htemplates ▸ List.mem_cons_self)
  refine ⟨hfirst, fun options' hsame => ?_, ?_⟩
  · obtain ⟨r', h'⟩ := hsame.exists_build h
    refine ⟨r', h', fun before before' id => ?_⟩
    rw [answer_of_build h, answer_of_build h', hsame.target?_eq hhead]
  · intro earlier m later hsplit template others htemplates id captures hcaptures hearlier ha hv
      before
    have hm : m ∈ r.mappings := hsplit ▸ List.mem_append_right _ List.mem_cons_self
    have hfound := Mapping.first?_append
      (fun m' hm' => Mapping.pathFor?_eq_none (hearlier m' hm'))
      (hfirst m hm template others htemplates id captures hcaptures) later
    rw [answer_of_build h, PathOptions.target?_eq ha hv, ← hmappings, hsplit, hfound,
      Option.map_some]

/-- The second of three entries that match settles the specifier, the first having no template. It
has two templates and fills the first, above the root. The other options leave the second template
out and add one to the entry behind. -/
theorem answers_of_first_template_climbing :
    let options : PathOptions :=
      { paths := some (.ofList [("*".toList, []), ("@/*".toList, ["../*".toList, "late/*".toList]),
          ("*x".toList, ["never/*".toList])]) }
    let options' : PathOptions :=
      { paths := some (.ofList [("*".toList, []), ("@/*".toList, ["../*".toList]),
          ("*x".toList, ["never/*".toList, "src/*".toList])]) }
    Path.isAbsolute .posix "/p/t.json".toList ∧ options.SameFirsts options' ∧
      ∃ r r', build .posix "/p/t.json".toList options = .ok r ∧
        build .posix "/p/t.json".toList options' = .ok r' ∧
        ((r.after ["bx".toList]).resolve "@/../x".toList).answer = .ok (some "/../x".toList) ∧
        (r'.resolve "@/../x".toList).answer = .ok (some "/../x".toList) := by
  intro options options'
  have hc : Path.isAbsolute .posix "/p/t.json".toList := by decide
  have hsame : options.SameFirsts options' := ⟨rfl, by decide +kernel⟩
  obtain ⟨r, h⟩ : ∃ r, build .posix "/p/t.json".toList options = .ok r := ⟨_, rfl⟩
  obtain ⟨-, hsettled, hfirst⟩ := answers_of_first_template h hc
  obtain ⟨r', h', hanswers⟩ := hsettled options' hsame
  let entry (key : String) (templates : List String) : Mapping :=
    Mapping.compiled .posix "/p".toList (key.toList, templates.map String.toList)
  have hmappings : r.mappings =
      [entry "*" []] ++ entry "@/*" ["../*", "late/*"] :: [entry "*x" ["never/*"]] := by
    rw [build_eq_ok h]
    rfl
  have hanswer := hfirst _ _ _ hmappings "/*".toList ["/p/late/*".toList] (by decide +kernel)
    "@/../x".toList ["../x".toList] (by decide +kernel)
    (fun m' hm' => .inr (List.mem_singleton.mp hm' ▸ rfl)) (by decide) (by decide)
  have hfilled : Template.fill "@/../x".toList ["../x".toList] "/*".toList = "/../x".toList := by
    decide +kernel
  rw [hfilled] at hanswer
  exact ⟨hc, hsame, r, r', h, h', hanswer _, (hanswers [] [] _).symm.trans (hanswer [])⟩

end Resolver

end ImportAlias
