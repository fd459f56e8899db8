import Mathlib.Algebra.GroupWithZero.Nat
import ImportAlias.Proofs.Pattern.Expression
import ImportAlias.Proofs.Resolver.Reference

/-!
# Which options are refused

Only the keys of a table can make options unusable, and only by their size: the expression that is
written for a key is well formed whatever characters the key holds, since those that have a meaning
of their own are escaped (`Expression.read_regex`). So an engine that refuses what is malformed or
too large refuses the expression of a key exactly when it is too large (`isRefused_regex_iff`).

A table is compiled up to the first key that is refused, and that key is reported
(`build_eq_error_iff`). Otherwise nothing is lost on the way from the table to the compiled entries
(`mappings_of_build`), and every look-up has an answer.
-/

namespace ImportAlias

namespace Expression

/-! ### The size of an expression -/

/-- Whether the piece is a capture. -/
def Piece.isGroup : Piece → Bool
  | .group => true
  | _ => false

/-- The instructions that a piece is compiled to. A capture takes four: to open it, to take a
character, to go on or not, and to close it. -/
def Piece.instructions : Piece → Nat
  | .group => 4
  | _ => 1

/-- The bytes that an expression takes once it is compiled: its instructions and three around them,
slots for each capture and for the whole match, and a class for each capture. -/
def bytes (pieces : List Piece) : Nat :=
  32 * ((pieces.map Piece.instructions).sum + 3) + 16 * (1 + pieces.countP Piece.isGroup) +
    24 * pieces.countP Piece.isGroup

/-- An engine refuses an expression that is malformed or that takes more bytes than are allowed. -/
def IsRefused (expression : Text) : Prop :=
  ∀ pieces, read expression = some pieces → Pattern.sizeLimit < bytes pieces

theorem countP_isGroup_chars (run : Text) : (run.map Piece.char).countP Piece.isGroup = 0 := by
  simp [List.countP_eq_zero, Piece.isGroup]

theorem sum_instructions_chars (run : Text) :
    ((run.map Piece.char).map Piece.instructions).sum = run.length := by
  have hone : Piece.instructions ∘ Piece.char = fun _ => 1 := rfl
  simp [hone]

/-- The captures of a pattern are its wildcards. -/
theorem countP_isGroup_body (p : Pattern) : (body p).countP Piece.isGroup = p.wildcards := by
  obtain ⟨lead, runs⟩ := p
  induction runs generalizing lead with
  | nil => simp [body, Piece.isGroup, Pattern.wildcards]
  | cons run runs ih =>
    rw [body_cons, List.countP_append, List.countP_cons, ih, countP_isGroup_chars]
    simp [Piece.isGroup, Pattern.wildcards]

/-- The instructions of a pattern: one for each literal, four for each wildcard, and the end. -/
theorem sum_instructions_body (p : Pattern) :
    ((body p).map Piece.instructions).sum = p.literals + 4 * p.wildcards + 1 := by
  obtain ⟨lead, runs⟩ := p
  induction runs generalizing lead with
  | nil =>
    have hbody : body ⟨lead, []⟩ = lead.map .char ++ [.finish] := by simp [body]
    rw [hbody, List.map_append, List.sum_append, sum_instructions_chars]
    simp [Piece.instructions, Pattern.literals, Pattern.wildcards]
  | cons run runs ih =>
    rw [body_cons, List.map_append, List.map_cons, List.sum_append, List.sum_cons, ih,
      sum_instructions_chars]
    simp only [Piece.instructions, Pattern.literals, Pattern.wildcards, List.flatten_cons,
      List.length_append, List.length_cons]
    omega

/-- What an expression takes is what its pattern is taken to need. -/
theorem bytes_body (p : Pattern) : bytes (.start :: body p) = p.compiledSize := by
  have hgroups : (Piece.start :: body p).countP Piece.isGroup = p.wildcards := by
    rw [List.countP_cons, countP_isGroup_body]
    rfl
  have hsum : ((Piece.start :: body p).map Piece.instructions).sum =
      p.literals + 4 * p.wildcards + 2 := by
    rw [List.map_cons, List.sum_cons, sum_instructions_body, Piece.instructions]
    · omega
    · exact Piece.noConfusion
  rw [bytes, hgroups, hsum, Pattern.compiledSize]
  omega

/-- **The expression of a pattern is refused for its size only.** -/
theorem isRefused_regex_iff (p : Pattern) : IsRefused p.regex ↔ p.tooLarge := by
  rw [IsRefused, read_regex, Pattern.tooLarge, decide_eq_true_eq, ← bytes_body]
  simp

/-- The wildcards and literals of a pattern are those of the key. -/
theorem counts_ofKey (key : Text) :
    (Pattern.ofKey key).wildcards = key.count wildcard ∧
      (Pattern.ofKey key).literals = key.countP (· ≠ wildcard) := by
  induction key with
  | nil => decide
  | cons c key ih =>
    obtain ⟨lead, runs, hsplit⟩ := List.exists_cons_of_ne_nil (List.splitOn_ne_nil wildcard key)
    simp only [Pattern.ofKey, List.splitOn_cons_eq_if_modifyHead, hsplit] at ih ⊢
    by_cases hc : c = wildcard
    · simp_all [Pattern.wildcards, Pattern.literals]
    · simp_all [Pattern.wildcards, Pattern.literals]
      omega

/-- **What a key costs** can be counted on the key. -/
theorem exists_read_regex (key : Text) :
    ∃ pieces, read (Pattern.ofKey key).regex = some pieces ∧
      bytes pieces =
        32 * (key.countP (· ≠ wildcard) + 5 + 4 * key.count wildcard) +
          16 * (1 + key.count wildcard) + 24 * key.count wildcard := by
  obtain ⟨hwildcards, hliterals⟩ := counts_ofKey key
  refine ⟨_, read_regex _, ?_⟩
  rw [bytes_body, Pattern.compiledSize, hwildcards, hliterals]

end Expression

namespace Resolver

open Expression

variable {platform : Platform} {configFile : Text} {options : PathOptions} {r : Resolver}

/-! ### Failure -/

/-- The first of the keys whose expression is refused. -/
def IsFirstRefused (keys : List Text) (key : Text) : Prop :=
  ∃ earlier later, keys = earlier ++ key :: later ∧
    (∀ k ∈ earlier, ¬IsRefused (Pattern.ofKey k).regex) ∧ IsRefused (Pattern.ofKey key).regex

theorem isFirstRefused_iff {keys : List Text} {key : Text} :
    IsFirstRefused keys key ↔ (keys.find? fun k => (Pattern.ofKey k).tooLarge) = some key := by
  rw [List.find?_eq_some_iff_append]
  simp only [IsFirstRefused, isRefused_regex_iff, Bool.not_eq_true, Bool.not_eq_eq_eq_not,
    Bool.not_true]
  exact ⟨fun ⟨earlier, later, h, hearlier, hkey⟩ => ⟨hkey, earlier, later, h, hearlier⟩,
    fun ⟨hkey, earlier, later, h, hearlier⟩ => ⟨earlier, later, h, hearlier, hkey⟩⟩

/-- **Building fails on the first refused key** and for no other reason. -/
theorem build_eq_error_iff {e : Mapping.OversizedKey} :
    build platform configFile options = .error e ↔
      ∃ table, options.paths = some table ∧ IsFirstRefused table.keys e.key := by
  simp only [isFirstRefused_iff, OrderedMap.keys, List.find?_map, Function.comp_def]
  rw [build_eq]
  cases hpaths : options.paths with
  | none => simp [PathOptions.entries, hpaths]
  | some table =>
    have hentries : options.entries = table.entries := by simp [PathOptions.entries, hpaths]
    simp only [hentries, Option.some.injEq, exists_eq_left']
    cases table.entries.find? fun entry => (Pattern.ofKey entry.1).tooLarge with
    | none => simp
    | some entry =>
      obtain ⟨key⟩ := e
      simp

/-- Building fails when some key is refused. -/
theorem exists_error_iff :
    (∃ e, build platform configFile options = .error e) ↔
      ∃ table, options.paths = some table ∧ ∃ key ∈ table.keys,
        IsRefused (Pattern.ofKey key).regex := by
  have hfails : (∃ e, build platform configFile options = .error e) ↔
      ¬∃ r, build platform configFile options = .ok r := by
    cases build platform configFile options <;> simp
  rw [hfails, exists_build_iff]
  simp only [isRefused_regex_iff]
  cases hpaths : options.paths with
  | none => simp [PathOptions.entries, hpaths]
  | some table => simp [PathOptions.entries, hpaths, OrderedMap.keys]

/-- The keys alone decide whether and on what building fails. -/
theorem build_error_congr {platform' : Platform} {configFile' : Text} {options' : PathOptions}
    (hkeys : options'.paths.map OrderedMap.keys = options.paths.map OrderedMap.keys)
    (e : Mapping.OversizedKey) :
    build platform' configFile' options' = .error e ↔
      build platform configFile options = .error e := by
  have hfails (platform : Platform) (configFile : Text) (o : PathOptions) :
      build platform configFile o = .error e ↔
        ∃ keys, o.paths.map OrderedMap.keys = some keys ∧ IsFirstRefused keys e.key := by
    rw [build_eq_error_iff]
    simp
  rw [hfails, hfails, hkeys]

/-! ### Success -/

/-- The compiled entry says what the declared one says, its templates seen from `dir`. -/
structure IsCompiledFrom (platform : Platform) (dir : Text) (m : Mapping)
    (entry : Text × List Text) : Prop where
  key_eq : m.key = entry.1
  pattern_eq : m.pattern = Pattern.ofKey entry.1
  templates_eq : m.templates = entry.2.map (Path.anchor platform dir)

/-- **Nothing is lost, repeated or moved** on the way from the table to the compiled entries. -/
theorem mappings_of_build (h : build platform configFile options = .ok r) :
    List.Forall₂ (IsCompiledFrom platform (r.baseUrl.getD (Path.dirname platform configFile)))
      r.mappings options.entries := by
  rw [build_eq_ok h]
  change List.Forall₂ _ (options.entries.map _) options.entries
  rw [List.forall₂_map_left_iff, List.forall₂_same]
  exact fun entry _ => ⟨rfl, rfl, rfl⟩

/-- The compiled entries bear the declared keys, no two of which are the same. -/
theorem nodup_keys_of_build (h : build platform configFile options = .ok r) :
    (r.mappings.map (·.key)).Nodup := by
  have hkeys : r.mappings.map (·.key) = options.entries.map Prod.fst := by
    rw [build_eq_ok h]
    exact List.map_map
  rw [hkeys, PathOptions.entries]
  cases options.paths with
  | none => exact List.nodup_nil
  | some table => exact table.nodup_keys

/-- **Options fail fast, and only by their keys.** Every key is written as a well-formed expression
whose size can be counted on the key. A resolver cannot be built exactly when the expression of a
key is refused, and the first such key is reported, whatever the `baseUrl`, the templates, the
configuration file and the platform are. Otherwise it has one compiled entry for each declared one,
in the same order and with different keys, and every look-up is answered. -/
theorem build_fails_fast (platform : Platform) (configFile : Text) (options : PathOptions) :
    (∀ key, ∃ pieces, read (Pattern.ofKey key).regex = some pieces ∧
      bytes pieces =
        32 * (key.countP (· ≠ wildcard) + 5 + 4 * key.count wildcard) +
          16 * (1 + key.count wildcard) + 24 * key.count wildcard) ∧
    ((∃ e, build platform configFile options = .error e) ↔
      ∃ table, options.paths = some table ∧ ∃ key ∈ table.keys,
        IsRefused (Pattern.ofKey key).regex) ∧
    (∀ e, build platform configFile options = .error e ↔
      ∃ table, options.paths = some table ∧ IsFirstRefused table.keys e.key) ∧
    (∀ platform' configFile' (options' : PathOptions),
      options'.paths.map OrderedMap.keys = options.paths.map OrderedMap.keys →
      ∀ e, build platform' configFile' options' = .error e ↔
        build platform configFile options = .error e) ∧
    ∀ r, build platform configFile options = .ok r →
      List.Forall₂ (IsCompiledFrom platform (r.baseUrl.getD (Path.dirname platform configFile)))
        r.mappings options.entries ∧
      (r.mappings.map (·.key)).Nodup ∧
      ∀ before id, ∃ path, ((r.after before).resolve id).answer = .ok path :=
  ⟨exists_read_regex, exists_error_iff, fun _ => build_eq_error_iff,
    fun _ _ _ hkeys e => build_error_congr hkeys e, fun _ h =>
      ⟨mappings_of_build h, nodup_keys_of_build h, fun before id =>
        ⟨_, answer_of_build h before id⟩⟩⟩

end Resolver

end ImportAlias
