import ImportAlias.Proofs.Path.Joining
import ImportAlias.Proofs.Resolver.Conventions

/-!
# A `baseUrl` or templates that say the same

A relative `baseUrl` is a step between the directory of the configuration file and the templates.
On POSIX it can be taken early, when it is anchored to the directory, or late, when the templates
are already joined to it and stand in a configuration without `baseUrl` (`PathOptions.joinedTo`).
As joining is associative, both configurations are compiled to the same entries.
-/

namespace ImportAlias

open ImportAlias.Path (isAbsolute join)

namespace Path

/-- A relative path is anchored by joining it. -/
theorem anchor_of_relative {p : Text} (h : ¬isAbsolute .posix p) (dir : Text) :
    anchor .posix dir p = join dir p := if_neg h

end Path

namespace PathOptions

/-- The options without a `baseUrl` whose templates are joined to `base` instead. -/
def joinedTo (base : Text) (o : PathOptions) : PathOptions where
  paths := o.paths.map (OrderedMap.mapValues (List.map (join base)))

section JoinedTo

variable {base : Text} {o : PathOptions} (configFile : Text)

theorem templateDir_joinedTo :
    (o.joinedTo base).templateDir .posix configFile = Path.dirname .posix configFile := rfl

theorem templateDir_of_relative (hne : base ≠ []) (hbase : ¬isAbsolute .posix base)
    (ho : o.baseUrl = some base) :
    o.templateDir .posix configFile = join (Path.dirname .posix configFile) base := by
  have hdeclared : o.declaredBaseUrl = some base := by
    rw [declaredBaseUrl, ho, Option.filter_some, if_pos (by simpa using hne)]
  rw [templateDir, joinDir?, hdeclared, Option.map_some, Option.getD_some,
    Path.anchor_of_relative hbase]

/-- Templates that are joined to the `baseUrl` are compiled as the `baseUrl` compiles them. -/
theorem compiled_joinedTo (hne : base ≠ []) (hbase : ¬isAbsolute .posix base)
    (ho : o.baseUrl = some base)
    (htemplates : ∀ entry ∈ o.entries, ∀ template ∈ entry.2, ¬isAbsolute .posix template) :
    (o.joinedTo base).compiled .posix configFile = o.compiled .posix configFile := by
  rw [compiled, templateDir_joinedTo, entries_of_paths rfl, List.map_map, compiled,
    templateDir_of_relative configFile hne hbase ho]
  refine List.map_congr_left fun entry hentry => ?_
  have hrelative : base.head? ≠ some '/' := mt Path.isAbsolute_posix_iff.mpr hbase
  have hanchor : ∀ template ∈ entry.2,
      Path.anchor .posix (Path.dirname .posix configFile) (join base template) =
        Path.anchor .posix (join (Path.dirname .posix configFile) base) template := by
    intro template htemplate
    have hjoined : ¬isAbsolute .posix (join base template) := by
      rw [Path.isAbsolute_posix_iff, Path.head?_join_iff hne]
      exact hrelative
    rw [Path.anchor_of_relative hjoined,
      Path.anchor_of_relative (htemplates entry hentry template htemplate),
      Path.join_join hne hrelative]
  simp only [Function.comp_apply, Mapping.compiled, List.map_map, Mapping.mk.injEq, true_and]
  exact List.map_congr_left hanchor

end JoinedTo

end PathOptions

namespace Resolver

/-- **Two steps are one.** Joining is associative when the path in the middle is relative. So a
relative `baseUrl` and relative templates are compiled to the same entries, or refused with the same
error, as templates that are joined to the `baseUrl` in a configuration without one. -/
theorem build_joinedTo {base : Text} (hne : base ≠ []) (hbase : ¬isAbsolute .posix base) :
    (∀ dir p, join (join dir base) p = join dir (join base p)) ∧
      ∀ configFile (options : PathOptions), options.baseUrl = some base →
        (∀ entry ∈ options.entries, ∀ template ∈ entry.2, ¬isAbsolute .posix template) →
        (build .posix configFile options).map (·.mappings) =
          (build .posix configFile (options.joinedTo base)).map (·.mappings) := by
  refine ⟨Path.join_join hne (mt Path.isAbsolute_posix_iff.mpr hbase), ?_⟩
  intro configFile options ho htemplates
  have hpaths : (options.joinedTo base).paths =
      options.paths.map (OrderedMap.mapValues (List.map (join base))) := rfl
  rw [build_eq, build_eq, PathOptions.find?_tooLarge_of_paths hpaths,
    PathOptions.compiled_joinedTo configFile hne hbase ho htemplates]
  cases options.entries.find? fun entry => (Pattern.ofKey entry.1).tooLarge <;> rfl

/-- A `baseUrl` that climbs and ends in a separator, and templates that are empty, climb above the
root and end in a separator. -/
theorem build_joinedTo_climbing :
    let options : PathOptions :=
      { baseUrl := some "../a/./".toList
        paths := some (.ofList [("@/*".toList, ["".toList, "../../../*/".toList])]) }
    "../a/./".toList ≠ [] ∧ ¬isAbsolute .posix "../a/./".toList ∧
      (∀ entry ∈ options.entries, ∀ template ∈ entry.2, ¬isAbsolute .posix template) ∧
      join (join "/p".toList "../a/./".toList) "".toList = "/a/".toList ∧
      join "/p".toList (join "../a/./".toList "".toList) = "/a/".toList ∧
      (options.joinedTo "../a/./".toList).entries =
        [("@/*".toList, ["../a/".toList, "../../../*/".toList])] ∧
      ∃ r r', build .posix "/p/t.json".toList options = .ok r ∧
        build .posix "/p/t.json".toList (options.joinedTo "../a/./".toList) = .ok r' ∧
        r.mappings = r'.mappings ∧
        r'.mappings.map (·.templates) = [["/a/".toList, "/*/".toList]] := by
  intro options
  have hne : "../a/./".toList ≠ [] := by decide
  have hbase : ¬isAbsolute .posix "../a/./".toList := by decide
  have htemplates :
      ∀ entry ∈ options.entries, ∀ template ∈ entry.2, ¬isAbsolute .posix template := by decide
  obtain ⟨hjoin, hbuild⟩ := build_joinedTo hne hbase
  have hjoined : join (join "/p".toList "../a/./".toList) "".toList = "/a/".toList := by
    decide +kernel
  obtain ⟨r, hr⟩ : ∃ r, build .posix "/p/t.json".toList options = .ok r := ⟨_, rfl⟩
  obtain ⟨r', hr'⟩ :
      ∃ r, build .posix "/p/t.json".toList (options.joinedTo "../a/./".toList) = .ok r := ⟨_, rfl⟩
  have hmappings := hbuild "/p/t.json".toList options rfl htemplates
  rw [hr, hr'] at hmappings
  refine ⟨hne, hbase, htemplates, hjoined, (hjoin _ _).symm.trans hjoined, by decide +kernel,
    r, r', hr, hr', Except.ok.inj hmappings, ?_⟩
  rw [build_eq_ok hr']
  decide +kernel

end Resolver

end ImportAlias
