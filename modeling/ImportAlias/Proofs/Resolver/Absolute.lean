import ImportAlias.Proofs.Path.Absolute
import ImportAlias.Proofs.Resolver.Reference

/-!
# Resolvers that give absolute paths

A configuration file with an absolute name has an absolute directory, and from there absoluteness
is carried along: to the `baseUrl` and the templates, which are anchored to that directory, and
from these to the paths that a resolver gives, which are joined to the one or filled into the
other. How many `..` stand in the options or in a specifier makes no difference.
-/

namespace ImportAlias

namespace PathOptions

variable {configFile : Text} {o : PathOptions}

theorem head?_joinDir (hc : configFile.head? = some '/') {dir : Text}
    (h : o.joinDir? .posix configFile = some dir) : dir.head? = some '/' := by
  obtain ⟨url, -, rfl⟩ := Option.map_eq_some_iff.mp h
  exact Path.head?_anchor (Path.head?_parent hc) url

theorem head?_templateDir (hc : configFile.head? = some '/') :
    (o.templateDir .posix configFile).head? = some '/' := by
  rw [templateDir]
  cases h : o.joinDir? .posix configFile with
  | none => exact Path.head?_parent hc
  | some dir => exact head?_joinDir hc h

theorem head?_template (hc : configFile.head? = some '/') {m : Mapping}
    (hm : m ∈ o.compiled .posix configFile) {template : Text} (ht : template ∈ m.templates) :
    template.head? = some '/' := by
  obtain ⟨declared, rfl⟩ := exists_anchor_of_mem_compiled hm ht
  exact Path.head?_anchor (head?_templateDir hc) declared

/-- The reference answer is absolute, whichever of the two options it comes from. -/
theorem head?_target (hc : configFile.head? = some '/') {id path : Text}
    (h : o.target? .posix configFile id = some path) : path.head? = some '/' := by
  rcases target?_eq_some h with ⟨_, _, template, _, captures, -, rfl⟩ | ⟨dir, hdir, rfl⟩
  · have ht : (Path.anchor .posix (o.templateDir .posix configFile) template).head? = some '/' :=
      Path.head?_anchor (head?_templateDir hc) template
    exact Template.head?_fill (by decide) ht id captures
  · exact Path.head?_join (head?_joinDir hc hdir) id

end PathOptions

namespace Resolver

/-- **Absolute configuration, absolute answers.** For a configuration file with an absolute name,
every path that a built resolver gives is absolute, whatever was looked up before, and so are its
`baseUrl` and all of its templates. -/
theorem absolute_of_build {configFile : Text} {options : PathOptions} {r : Resolver}
    (h : build .posix configFile options = .ok r) (hc : Path.isAbsolute .posix configFile) :
    (∀ before id path, ((r.after before).resolve id).answer = .ok (some path) →
      Path.isAbsolute .posix path) ∧
    (∀ dir, r.baseUrl = some dir → Path.isAbsolute .posix dir) ∧
    (∀ m ∈ r.mappings, ∀ template ∈ m.templates, Path.isAbsolute .posix template) := by
  have hhead : configFile.head? = some '/' := Path.isAbsolute_posix_iff.mp hc
  have hr := build_eq_ok h
  refine ⟨fun before id path hpath => ?_, fun dir hdir => ?_, fun m hm template ht => ?_⟩
  · exact Path.isAbsolute_posix_iff.mpr (PathOptions.head?_target hhead (target?_of_answer h hpath))
  · rw [hr] at hdir
    exact Path.isAbsolute_posix_iff.mpr (PathOptions.head?_joinDir hhead hdir)
  · rw [hr] at hm
    exact Path.isAbsolute_posix_iff.mpr (PathOptions.head?_template hhead hm ht)

/-- A `baseUrl` and a template that climb above the root, and a specifier that puts a `..` into
the template. -/
theorem absolute_of_build_climbing :
    let options : PathOptions :=
      { baseUrl := some "../../..".toList
        paths := some (.ofList [("@/*".toList, ["../lib/*".toList])]) }
    Path.isAbsolute .posix "/a/b/t.json".toList ∧
      ∃ r, build .posix "/a/b/t.json".toList options = .ok r ∧
        r.baseUrl = some ['/'] ∧ r.mappings.map (·.templates) = [["/lib/*".toList]] ∧
        ((r.after ["../x.js".toList]).resolve "@/../../x".toList).answer =
          .ok (some "/lib/../../x".toList) ∧
        Path.isAbsolute .posix "/lib/../../x".toList := by
  intro options
  obtain ⟨r, h⟩ : ∃ r, build .posix "/a/b/t.json".toList options = .ok r := ⟨_, rfl⟩
  have hc : Path.isAbsolute .posix "/a/b/t.json".toList := by decide
  have hanswer : ((r.after ["../x.js".toList]).resolve "@/../../x".toList).answer =
      .ok (some "/lib/../../x".toList) :=
    (answer_of_build h _ _).trans (by decide +kernel)
  refine ⟨hc, r, h, ?_, ?_, hanswer, (absolute_of_build h hc).1 _ _ _ hanswer⟩
  · rw [build_eq_ok h]
    decide +kernel
  · rw [build_eq_ok h]
    decide +kernel

end Resolver

end ImportAlias
