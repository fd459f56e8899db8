import Mathlib.Data.List.Infix
import ImportAlias.Proofs.Pattern.Captures

/-!
# What the shown expression matches

A pattern is shown as a regular expression, and it is by that expression that users judge what a
key does. Here the expression is read back and searched for in a specifier as a backtracking engine
does it: from the left, each `.+` as long as it can be and given up character by character, `.`
being any character but a line break. The engine tries its ways one after another; the matcher of
`Pattern.captures?` tries none. They agree (`Mapping.groups?_eq`) since the ways come in the order
of `Pattern.Greedier`, so the first way is the greediest.
-/

namespace ImportAlias

namespace Expression

/-- A piece of an expression. -/
inductive Piece where
  /-- `^`, the start of the text. -/
  | start
  /-- `$`, the end of the text. -/
  | finish
  /-- `(.+)`, a capture. -/
  | group
  /-- A character that stands for itself. -/
  | char (c : Char)

/-- The pieces of an expression. A character with a meaning of its own stands for itself only
behind a backslash. -/
def read : Text → Option (List Piece)
  | [] => some []
  | '^' :: t => (read t).map (.start :: ·)
  | '$' :: t => (read t).map (.finish :: ·)
  | '(' :: '.' :: '+' :: ')' :: t => (read t).map (.group :: ·)
  | '\\' :: c :: t => if c ∈ Pattern.metacharacters then (read t).map (.char c :: ·) else none
  | c :: t => if c ∈ Pattern.metacharacters then none else (read t).map (.char c :: ·)

/-- What `.+` can take from the front of a text and what it leaves, longest first. -/
def lines : Text → List (Text × Text)
  | [] => []
  | c :: t =>
    if c = '\n' then [] else (lines t).map (fun (taken, rest) => (c :: taken, rest)) ++ [([c], t)]

/-- The ways in which pieces match from a place in the text `whole` on, in the order in which they
are tried: what the groups capture, and what is left unread. -/
def ways (whole : Text) : List Piece → Text → List (List Text × Text)
  | [], unread => [([], unread)]
  | .start :: pieces, unread => if unread = whole then ways whole pieces unread else []
  | .finish :: pieces, unread => if unread = [] then ways whole pieces unread else []
  | .group :: pieces, unread =>
    (lines unread).flatMap fun (taken, rest) =>
      (ways whole pieces rest).map fun (captures, rest) => (taken :: captures, rest)
  | .char c :: pieces, d :: unread => if c = d then ways whole pieces unread else []
  | .char _ :: _, [] => []

/-- The groups of the first way from a place on. Group 0 is all that is matched. -/
def groupsFrom? (pieces : List Piece) (whole unread : Text) : Option (List Text) :=
  (ways whole pieces unread).head?.map fun (captures, rest) =>
    unread.take (unread.length - rest.length) :: captures

/-- The groups of the leftmost match. -/
def search (pieces : List Piece) (whole : Text) : Option (List Text) :=
  whole.tails.findSome? (groupsFrom? pieces whole)

/-! ### Reading -/

/-- The pieces that a pattern is written as, but for the start. -/
def body (p : Pattern) : List Piece :=
  p.lead.map .char ++ p.runs.flatMap (fun run => .group :: run.map .char) ++ [.finish]

theorem body_cons (lead run : Text) (runs : List Text) :
    body ⟨lead, run :: runs⟩ = lead.map .char ++ .group :: body ⟨run, runs⟩ := by
  simp [body]

theorem read_start (t : Text) : read ('^' :: t) = (read t).map (.start :: ·) := rfl

theorem read_group (t : Text) : read ("(.+)".toList ++ t) = (read t).map (.group :: ·) := rfl

theorem read_escaped {c : Char} (hc : c ∈ Pattern.metacharacters) (t : Text) :
    read ('\\' :: c :: t) = (read t).map (.char c :: ·) := if_pos hc

/-- A character with no meaning of its own is read as it is. -/
theorem read_cons {c : Char} (hc : c ∉ Pattern.metacharacters) (t : Text) :
    read (c :: t) = (read t).map (.char c :: ·) := by
  have hne (d : Char) (hd : d ∈ Pattern.metacharacters) (h : c = d) : False := hc (h ▸ hd)
  rw [read, if_neg hc]
  · exact hne _ (by decide)
  · exact hne _ (by decide)
  · exact fun _ h _ => hne _ (by decide) h
  · exact fun _ _ h _ => hne _ (by decide) h

/-- An escaped run is read as the run. -/
theorem read_escape (run t : Text) :
    read (Pattern.escape run ++ t) = (read t).map (run.map .char ++ ·) := by
  induction run with
  | nil => exact Option.map_id'.symm
  | cons c run ih =>
    have hcons : Pattern.escape (c :: run) ++ t =
        (if Pattern.metacharacters.contains c then ['\\', c] else [c]) ++
          (Pattern.escape run ++ t) := by
      rw [Pattern.escape, List.flatMap_cons, List.append_assoc, ← Pattern.escape]
    have hread : read (Pattern.escape (c :: run) ++ t) =
        (read (Pattern.escape run ++ t)).map (.char c :: ·) := by
      rw [hcons]
      split
      · rename_i hc
        exact read_escaped (List.contains_iff_mem.mp hc) _
      · rename_i hc
        exact read_cons (fun hmem => hc (List.contains_iff_mem.mpr hmem)) _
    rw [hread, ih, Option.map_map]
    rfl

/-- The wildcards and the runs behind them, each run with its wildcard, are read as such. -/
theorem read_runs (runs : List Text) :
    read (runs.flatMap (fun run => "(.+)".toList ++ Pattern.escape run) ++ ['$']) =
      some (runs.flatMap (fun run => .group :: run.map .char) ++ [.finish]) := by
  induction runs with
  | nil => rfl
  | cons run runs ih =>
    rw [List.flatMap_cons, List.append_assoc, List.append_assoc, read_group, read_escape, ih,
      List.flatMap_cons, List.append_assoc]
    rfl

/-- **Reading inverts writing.** -/
theorem read_regex (p : Pattern) : read p.regex = some (.start :: body p) := by
  rw [Pattern.regex, List.cons_append, List.cons_append, List.append_assoc, read_start,
    read_escape, read_runs, body, List.append_assoc]
  rfl

/-! ### Matching -/

theorem lines_cons (c : Char) (t : Text) :
    lines (c :: t) =
      if c = '\n' then []
      else (lines t).map (fun (taken, rest) => (c :: taken, rest)) ++ [([c], t)] := rfl

/-- What `.+` takes is not empty and has no line break. -/
theorem mem_lines {t taken rest : Text} :
    (taken, rest) ∈ lines t ↔ taken ≠ [] ∧ '\n' ∉ taken ∧ taken ++ rest = t := by
  induction t generalizing taken with
  | nil =>
    refine iff_of_false (nomatch ·) fun ⟨hne, _, h⟩ => hne (List.append_eq_nil_iff.mp h).1
  | cons c t ih =>
    cases taken with
    | nil =>
      rw [lines_cons]
      split <;> simp
    | cons d taken =>
      by_cases hbreak : c = '\n'
      · rw [lines_cons, if_pos hbreak]
        simp only [List.not_mem_nil, List.mem_cons, List.cons_append, List.cons.injEq, false_iff]
        rintro ⟨-, hmem, rfl, -⟩
        exact hmem (.inl hbreak.symm)
      · rw [lines_cons, if_neg hbreak]
        have hlonger : (d :: taken, rest) ∈
            (lines t).map (fun (taken, rest) => (c :: taken, rest)) ↔
              c = d ∧ (taken, rest) ∈ lines t := by
          simp [and_comm]
        rw [List.mem_append, hlonger, ih, List.mem_singleton]
        constructor
        · rintro (⟨rfl, -, honeLine, rfl⟩ | h)
          · exact ⟨by simp, by simp [honeLine, eq_comm, hbreak], rfl⟩
          · cases h
            exact ⟨by simp, by simp [eq_comm, hbreak], rfl⟩
        · rintro ⟨-, honeLine, h⟩
          obtain ⟨rfl, rfl⟩ := List.cons.inj h
          by_cases htaken : taken = []
          · exact .inr (by rw [htaken]; rfl)
          · exact .inl ⟨rfl, htaken, fun hmem => honeLine (List.mem_cons_of_mem _ hmem), rfl⟩

/-- What `.+` takes gets shorter. -/
theorem pairwise_lines (t : Text) :
    (lines t).Pairwise fun a b => b.1.length < a.1.length := by
  induction t with
  | nil => exact .nil
  | cons c t ih =>
    rw [lines_cons]
    split
    · exact .nil
    · refine List.pairwise_append.mpr ⟨List.pairwise_map.mpr ?_, List.pairwise_singleton .., ?_⟩
      · exact ih.imp fun h => Nat.succ_lt_succ h
      · simp only [List.mem_map, List.mem_singleton]
        rintro _ ⟨⟨taken, rest⟩, hmem, rfl⟩ _ rfl
        exact Nat.succ_lt_succ (List.length_pos_of_ne_nil (mem_lines.mp hmem).1)

variable {whole : Text}

theorem ways_start (pieces : List Piece) (unread : Text) :
    ways whole (.start :: pieces) unread =
      if unread = whole then ways whole pieces unread else [] := rfl

theorem ways_finish (unread : Text) :
    ways whole [.finish] unread = if unread = [] then [([], unread)] else [] := rfl

theorem ways_group (pieces : List Piece) (unread : Text) :
    ways whole (.group :: pieces) unread =
      (lines unread).flatMap fun (taken, rest) =>
        (ways whole pieces rest).map fun (captures, rest) => (taken :: captures, rest) := rfl

theorem ways_char (c d : Char) (pieces : List Piece) (unread : Text) :
    ways whole (.char c :: pieces) (d :: unread) =
      if c = d then ways whole pieces unread else [] := rfl

/-- Characters match a run at the front of the text. -/
theorem ways_chars (run : Text) (pieces : List Piece) (unread : Text) :
    ways whole (run.map .char ++ pieces) unread =
      match run.isPrefixOf? unread with
      | some rest => ways whole pieces rest
      | none => [] := by
  induction run generalizing unread with
  | nil => rfl
  | cons c run ih =>
    cases unread with
    | nil => rfl
    | cons d unread =>
      rw [List.map_cons, List.cons_append, ways_char, List.isPrefixOf?]
      by_cases hcd : c = d
      · simp [hcd, ih]
      · simp [hcd]

theorem mem_ways_chars {run unread : Text} {pieces : List Piece} {way : List Text × Text} :
    way ∈ ways whole (run.map .char ++ pieces) unread ↔
      ∃ behind, run ++ behind = unread ∧ way ∈ ways whole pieces behind := by
  rw [ways_chars]
  constructor
  · intro h
    split at h
    · rename_i behind hbehind
      exact ⟨behind, List.isPrefixOf?_eq_some_iff_append_eq.mp hbehind, h⟩
    · cases h
  · rintro ⟨behind, hbehind, h⟩
    rw [List.isPrefixOf?_eq_some_iff_append_eq.mpr hbehind]
    exact h

theorem mem_ways_group {pieces : List Piece} {unread rest : Text} {captures : List Text} :
    (captures, rest) ∈ ways whole (.group :: pieces) unread ↔
      ∃ taken behind others, captures = taken :: others ∧ taken ≠ [] ∧ '\n' ∉ taken ∧
        taken ++ behind = unread ∧ (others, rest) ∈ ways whole pieces behind := by
  simp only [ways_group, List.mem_flatMap, List.mem_map, Prod.exists, mem_lines, Prod.mk.injEq]
  constructor
  · rintro ⟨taken, behind, ⟨hne, honeLine, hunread⟩, others, _, hway, rfl, rfl⟩
    exact ⟨taken, behind, others, rfl, hne, honeLine, hunread, hway⟩
  · rintro ⟨taken, behind, others, rfl, hne, honeLine, hunread, hway⟩
    exact ⟨taken, behind, ⟨hne, honeLine, hunread⟩, others, _, hway, rfl, rfl⟩

/-- **The ways of a pattern** are the captures that match. -/
theorem mem_ways_body {p : Pattern} {unread rest : Text} {captures : List Text} :
    (captures, rest) ∈ ways whole (body p) unread ↔ rest = [] ∧ p.Matches unread captures := by
  obtain ⟨lead, runs⟩ := p
  induction runs generalizing lead unread captures with
  | nil =>
    have hfinish (behind : Text) : (captures, rest) ∈ ways whole [.finish] behind ↔
        behind = [] ∧ captures = [] ∧ rest = [] := by
      rw [ways_finish]
      split <;> simp_all
    rw [body, List.flatMap_nil, List.append_nil, mem_ways_chars, Pattern.matches_nil_iff]
    simp only [hfinish]
    constructor
    · rintro ⟨_, rfl, rfl, rfl, rfl⟩
      exact ⟨rfl, rfl, List.append_nil _⟩
    · rintro ⟨rfl, rfl, rfl⟩
      exact ⟨[], List.append_nil _, rfl, rfl, rfl⟩
  | cons run runs ih =>
    rw [body_cons, mem_ways_chars, Pattern.matches_cons_iff]
    simp only [mem_ways_group, ih]
    constructor
    · rintro ⟨_, rfl, taken, behind, others, rfl, hne, honeLine, rfl, rfl, h⟩
      exact ⟨rfl, taken, behind, others, rfl, hne, honeLine, rfl, h⟩
    · rintro ⟨rfl, taken, behind, others, rfl, hne, honeLine, rfl, h⟩
      exact ⟨_, rfl, taken, behind, others, rfl, hne, honeLine, rfl, rfl, h⟩

/-- **The ways of a pattern come in the order of greed.** -/
theorem pairwise_ways_body (whole : Text) (p : Pattern) (unread : Text) :
    (ways whole (body p) unread).Pairwise fun a b => Pattern.Greedier a.1 b.1 := by
  obtain ⟨lead, runs⟩ := p
  induction runs generalizing lead unread with
  | nil =>
    rw [body, List.flatMap_nil, List.append_nil, ways_chars]
    split
    · rw [ways_finish]
      split
      · exact List.pairwise_singleton ..
      · exact .nil
    · exact .nil
  | cons run runs ih =>
    rw [body_cons, ways_chars]
    split
    · rw [ways_group, List.pairwise_flatMap]
      constructor
      · rintro ⟨taken, rest⟩ -
        exact List.pairwise_map.mpr ((ih rest run).imp fun h => Or.inr ⟨rfl, h⟩)
      · refine (pairwise_lines _).imp fun hlt => ?_
        simp only [List.mem_map]
        rintro _ ⟨_, -, rfl⟩ _ ⟨_, -, rfl⟩
        exact .inl hlt
    · exact .nil

/-- The first way is the greediest. -/
theorem head?_ways_body (p : Pattern) (id : Text) :
    (ways whole (body p) id).head? = (p.captures? id).map (·, []) := by
  cases hways : ways whole (body p) id with
  | nil =>
    have hnone : p.captures? id = none := by
      by_contra hsome
      obtain ⟨captures, hcaptures⟩ := Option.ne_none_iff_exists'.mp hsome
      have hmem : (captures, []) ∈ ways whole (body p) id :=
        mem_ways_body.mpr ⟨rfl, Pattern.matches_of_captures? hcaptures⟩
      rw [hways] at hmem
      cases hmem
    rw [hnone]
    rfl
  | cons way others =>
    obtain ⟨captures, rest⟩ := way
    have hfirst : (captures, rest) ∈ ways whole (body p) id := hways ▸ List.mem_cons_self
    obtain ⟨rfl, hmatches⟩ := mem_ways_body.mp hfirst
    have hsome : p.captures? id = some captures := by
      refine Pattern.captures?_eq_some_iff.mpr ⟨hmatches, fun found hfound => ?_⟩
      have hmem : (found, []) ∈ ways whole (body p) id := mem_ways_body.mpr ⟨rfl, hfound⟩
      have hpairwise := pairwise_ways_body whole p id
      rw [hways] at hmem hpairwise
      rcases List.mem_cons.mp hmem with heq | hbehind
      · cases heq
        exact .refl _
      · exact List.rel_of_pairwise_cons hpairwise hbehind
    rw [hsome]
    rfl

/-- **Searching for the expression of a pattern** gives the specifier and its captures. -/
theorem search_body (p : Pattern) (id : Text) :
    search (.start :: body p) id = (p.captures? id).map (id :: ·) := by
  have hwhole : groupsFrom? (.start :: body p) id id = (p.captures? id).map (id :: ·) := by
    rw [groupsFrom?, ways_start, if_pos rfl, head?_ways_body, Option.map_map]
    simp [Function.comp_def]
  -- Past its first character the specifier does not start any more.
  have hlater {unread : Text} (h : unread.length < id.length) :
      groupsFrom? (.start :: body p) id unread = none := by
    have hne : unread ≠ id := fun heq => Nat.lt_irrefl _ (heq ▸ h)
    rw [groupsFrom?, ways_start, if_neg hne]
    rfl
  cases id with
  | nil => simp [search, hwhole]
  | cons c t =>
    have hnone : t.tails.findSome? (groupsFrom? (.start :: body p) (c :: t)) = none := by
      refine List.findSome?_eq_none_iff.mpr fun unread hunread => hlater ?_
      exact Nat.lt_succ_of_le ((List.mem_tails ..).mp hunread).length_le
    rw [search, List.tails, List.findSome?_cons, hwhole, hnone]
    cases p.captures? (c :: t) <;> rfl

end Expression

namespace Mapping

/-- The groups that the expression of an entry gives for a specifier, group 0 first. -/
def groups? (m : Mapping) (id : Text) : Option (List Text) :=
  (Expression.read m.pattern.regex).bind (Expression.search · id)

/-- **The matcher implements the expression.** -/
theorem groups?_eq (m : Mapping) (id : Text) :
    m.groups? id = (m.pattern.captures? id).map (id :: ·) := by
  rw [groups?, Expression.read_regex, Option.bind_some, Expression.search_body]

/-- A key joined from literal runs denotes the pattern of these runs. -/
theorem ofKey_intercalate {lead : Text} {runs : List Text}
    (hliteral : ∀ run ∈ lead :: runs, wildcard ∉ run) :
    Pattern.ofKey ([wildcard].intercalate (lead :: runs)) = ⟨lead, runs⟩ := by
  rw [Pattern.ofKey, List.splitOn_intercalate wildcard hliteral (List.cons_ne_nil lead runs)]

/-- **What a key matches.** A key with the literal runs `L₀, …, Lₙ` that is not too large compiles,
and a specifier has groups exactly when it is `L₀ c₁ L₁ … cₙ Lₙ` for some captures `cᵢ` that are
neither empty nor hold a line break. The groups are then the specifier and the greediest such
captures. A key without wildcards has groups for itself only. -/
theorem exists_compile_groups? (platform : Platform) (base : Text) (templates : List Text)
    {lead : Text} {runs : List Text} (hliteral : ∀ run ∈ lead :: runs, wildcard ∉ run)
    (hsize : Pattern.tooLarge ⟨lead, runs⟩ = false) :
    ∃ m, compile platform base ([wildcard].intercalate (lead :: runs)) templates = .ok m ∧
      ∀ id,
        m.groups? id = (m.pattern.captures? id).map (id :: ·) ∧
        ((m.groups? id).isSome ↔ ∃ captures, Pattern.Matches ⟨lead, runs⟩ id captures) ∧
        (∀ groups, m.groups? id = some groups →
          ∃ captures, groups = id :: captures ∧ captures.length = runs.length ∧
            Pattern.Matches ⟨lead, runs⟩ id captures ∧
            ∀ others, Pattern.Matches ⟨lead, runs⟩ id others →
              Pattern.Greedier captures others) ∧
        (runs = [] → ((m.groups? id).isSome ↔ id = [wildcard].intercalate (lead :: runs))) := by
  have hkey := ofKey_intercalate hliteral
  have hfits : ¬ (Pattern.ofKey ([wildcard].intercalate (lead :: runs))).tooLarge = true := by
    rw [hkey, hsize]
    exact Bool.false_ne_true
  obtain ⟨m, hm, hpattern⟩ : ∃ m, compile platform base ([wildcard].intercalate (lead :: runs))
      templates = .ok m ∧ m.pattern = ⟨lead, runs⟩ := ⟨_, if_neg hfits, hkey⟩
  refine ⟨m, hm, fun id => ?_⟩
  rw [groups?_eq, hpattern, Option.isSome_map]
  refine ⟨rfl, Pattern.captures?_isSome_iff, fun groups hgroups => ?_, ?_⟩
  · obtain ⟨captures, hcaptures, rfl⟩ := Option.map_eq_some_iff.mp hgroups
    obtain ⟨hmatches, hgreediest⟩ := Pattern.captures?_eq_some_iff.mp hcaptures
    exact ⟨captures, rfl, hmatches.length_eq, hmatches, hgreediest⟩
  · rintro rfl
    rw [Pattern.captures?_isSome_iff, List.intercalate_singleton]
    simp only [Pattern.matches_nil_iff]
    exact ⟨fun ⟨_, _, hid⟩ => hid, fun hid => ⟨[], rfl, hid⟩⟩

/-- Both the dot and the plus of a key stand for themselves, and of the two ways to divide the
specifier at a plus the one with the longer first capture is taken. -/
theorem exists_compile_groups?_ambiguous :
    (∀ run ∈ ["a.".toList, "+".toList, "c".toList], wildcard ∉ run) ∧
      Pattern.tooLarge ⟨"a.".toList, ["+".toList, "c".toList]⟩ = false ∧
      ∃ m, compile .posix "/b".toList "a.*+*c".toList [] = .ok m ∧
        m.groups? "a.xx+y+zc".toList =
          some ["a.xx+y+zc".toList, "xx+y".toList, "z".toList] := by
  have hliteral : ∀ run ∈ ["a.".toList, "+".toList, "c".toList], wildcard ∉ run := by decide
  have hsize : Pattern.tooLarge ⟨"a.".toList, ["+".toList, "c".toList]⟩ = false := by decide
  obtain ⟨m, hm, h⟩ := exists_compile_groups? .posix "/b".toList [] hliteral hsize
  refine ⟨hliteral, hsize, m, hm, ?_⟩
  rw [(h _).1]
  cases hm
  decide

end Mapping

end ImportAlias
