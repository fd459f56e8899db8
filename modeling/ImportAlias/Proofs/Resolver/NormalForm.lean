import ImportAlias.Proofs.Path.DriveForm
import ImportAlias.Proofs.Resolver.Reference

/-!
# When the path of a resolver is in normal form

A resolver normalizes early: the `baseUrl` and the templates are in normal form from the moment
they are anchored. What happens to them on a look-up depends on where the path comes from. A
specifier that is joined to the `baseUrl` is normalized once more, under the convention of `/`
alone. A capture that is put into a template is not: whatever the specifier holds in place of the
wildcard, a `..`, a doubled separator or a backslash, stands in the path as it is.

So the paths of a resolver are not all in normal form. The main statement says for both sources
which of them are, and two specifiers show that there are others.
-/

namespace ImportAlias

namespace PathOptions

variable {platform : Platform} {configFile : Text} {o : PathOptions}

/-- Compiled templates are in normal form. -/
theorem isNormal_template {m : Mapping} (hm : m ∈ o.compiled platform configFile)
    {template : Text} (ht : template ∈ m.templates) : Path.IsNormal platform template := by
  obtain ⟨declared, rfl⟩ := exists_anchor_of_mem_compiled hm ht
  exact Path.isNormal_anchor platform _ declared

/-- A substituted path is a compiled template, filled. -/
theorem IsSubstitution.exists_compiled {id path : Text}
    (h : o.IsSubstitution platform configFile id path) :
    ∃ m ∈ o.compiled platform configFile, ∃ template ∈ m.templates, ∃ captures,
      m.pattern.captures? id = some captures ∧ path = Template.fill id captures template := by
  obtain ⟨entry, hentry, declared, hdeclared, captures, hcaptures, rfl⟩ := h
  exact ⟨_, List.mem_map_of_mem hentry, _, List.mem_map_of_mem hdeclared, captures, hcaptures, rfl⟩

end PathOptions

namespace Template

/-- A template without wildcards stands for itself. -/
theorem fill_eq_self {template : Text} (h : wildcard ∉ template) (id : Text)
    (captures : List Text) : fill id captures template = template := by
  rw [fill, List.splitOn_eq_singleton h]
  simp [fillPieces]

end Template

namespace Resolver

/-- **Where normal forms come from.** A path that was joined to the `baseUrl` is in normal form,
except that on Windows a backslash may be left in it, or a `.` right behind its drive. A path that
was made of a template is in normal form when the template has no wildcard; otherwise the template
is in normal form, and the path is when filling it has left it so: climbs at the start of a
relative path, behind them names with one separator between any two, and on Windows no
backslash. -/
theorem normal_iff_of_resolve {platform : Platform} {configFile : Text} {options : PathOptions}
    {r : Resolver} (h : build platform configFile options = .ok r) {before : List Text}
    {id path : Text} (hpath : ((r.after before).resolve id).answer = .ok (some path)) :
    (∃ dir, r.baseUrl = some dir ∧ path = Path.join dir id ∧
      (Path.normalizeOn platform path = path ↔
        platform = .posix ∨ '\\' ∉ path ∧ ¬Path.DotBehindDrive path)) ∨
    (∃ m ∈ r.mappings, ∃ template ∈ m.templates, ∃ captures,
      m.pattern.captures? id = some captures ∧ path = Template.fill id captures template ∧
      Path.normalizeOn platform template = template ∧
      (wildcard ∉ template → Path.normalizeOn platform path = path) ∧
      (Path.normalizeOn platform path = path ↔ Path.IsNormal platform path)) := by
  have hr := build_eq_ok h
  rcases PathOptions.target?_eq_some (target?_of_answer h hpath) with hfilled | ⟨dir, hdir, rfl⟩
  · right
    obtain ⟨m, hm, template, ht, captures, hcaptures, rfl⟩ := hfilled.exists_compiled
    have hnormal : Path.normalizeOn platform template = template :=
      Path.normalizeOn_eq_self_iff.mpr (PathOptions.isNormal_template hm ht)
    have hmapping : m ∈ r.mappings := by rw [hr]; exact hm
    refine ⟨m, hmapping, template, ht, captures, hcaptures, rfl, hnormal, fun hfixed => ?_,
      Path.normalizeOn_eq_self_iff⟩
    rw [Template.fill_eq_self hfixed, hnormal]
  · left
    have hbase : r.baseUrl = some dir := by rw [hr]; exact hdir
    refine ⟨dir, hbase, rfl, ?_⟩
    have hwritten : Path.IsWritten (Path.join dir id) := Path.isWritten_join dir id
    rw [Path.normalizeOn_eq_self_iff]
    cases platform with
    | posix => exact ⟨fun _ => .inl rfl, fun _ => hwritten⟩
    | windows => simpa using Path.isNormal_windows_iff hwritten

/-- A captured `..` stays in the path, with the rest of the template in normal form. -/
theorem normal_iff_of_resolve_captured :
    let options : PathOptions := { paths := some (.ofList [("@/*".toList, ["./src/*".toList])]) }
    ∃ r, build .posix "/p/t.json".toList options = .ok r ∧
      (r.resolve "@/../x".toList).answer = .ok (some "/p/src/../x".toList) ∧
      r.mappings.map (·.templates) = [["/p/src/*".toList]] ∧
      ¬Path.IsNormal .posix "/p/src/../x".toList := by
  intro options
  obtain ⟨r, h⟩ : ∃ r, build .posix "/p/t.json".toList options = .ok r := ⟨_, rfl⟩
  have hr := build_eq_ok h
  have hpath : ((r.after []).resolve "@/../x".toList).answer = .ok (some "/p/src/../x".toList) :=
    (answer_of_build h [] _).trans (by decide +kernel)
  have hchanged : Path.normalizeOn .posix "/p/src/../x".toList ≠ "/p/src/../x".toList := by
    decide +kernel
  refine ⟨r, h, hpath, ?_, ?_⟩
  · rw [hr]
    decide +kernel
  · rcases normal_iff_of_resolve h hpath with ⟨dir, hdir, -⟩ | ⟨_, -, _, -, _, -, -, -, -, hiff⟩
    · rw [hr] at hdir
      cases hdir
    · exact fun hnormal => hchanged (hiff.mpr hnormal)

/-- **Not every path is in normal form**, from either source: one specifier puts a `..` into a
template, the other is joined to a Windows `baseUrl` with its backslash. -/
theorem resolve_not_normal :
    (∃ r, build .posix "/p/t.json".toList
        { paths := some (.ofList [("@/*".toList, ["src/*".toList])]) } = .ok r ∧
      Path.isAbsolute .posix "/p/t.json".toList ∧
      (r.resolve "@/../x".toList).answer = .ok (some "/p/src/../x".toList) ∧
      Path.normalizeOn .posix "/p/src/../x".toList = "/p/x".toList) ∧
    (∃ r, build .windows "C:/p/t.json".toList { baseUrl := some "src".toList } = .ok r ∧
      Path.isAbsolute .windows "C:/p/t.json".toList ∧
      (r.resolve "a\\b.js".toList).answer = .ok (some "C:/p/src/a\\b.js".toList) ∧
      Path.normalizeOn .windows "C:/p/src/a\\b.js".toList = "C:/p/src/a/b.js".toList) := by
  constructor
  · obtain ⟨r, h⟩ : ∃ r, build .posix "/p/t.json".toList
        { paths := some (.ofList [("@/*".toList, ["src/*".toList])]) } = .ok r := ⟨_, rfl⟩
    exact ⟨r, h, by decide, (answer_of_build h [] _).trans (by decide +kernel), by decide +kernel⟩
  · obtain ⟨r, h⟩ : ∃ r, build .windows "C:/p/t.json".toList
        { baseUrl := some "src".toList } = .ok r := ⟨_, rfl⟩
    exact ⟨r, h, by decide, (answer_of_build h [] _).trans (by decide +kernel), by decide +kernel⟩

end Resolver

end ImportAlias
