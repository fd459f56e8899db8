import ImportAlias.Proofs.Path.Absolute
import ImportAlias.Proofs.Path.DriveForm

/-!
# Where the conventions meet

The two conventions differ in what they make of backslashes and of drives. A path without a
backslash and without a colon is therefore the same under both: it has no drive, and whatever is
done with it, no character is brought in that could make one (`IsPlain.dirname_eq`,
`IsPlain.anchor_eq`).

On Windows in turn it makes no difference which of the two slashes separates segments. Each
operation writes its operands with `/`, but at a moment of its own: the drive is looked for before
or behind that, and the drive of a base is put in front of a path that is still as it was written.
That the moment does not show is `dirname_slash` and `anchor_slash`.
-/

namespace ImportAlias

namespace Path

/-- What is joined holds the characters of its operands, separators, and a `.` for want of
segments. -/
theorem mem_join {base segment : Text} {c : Char} (h : c ∈ join base segment) :
    c ∈ base ∨ c ∈ segment ∨ c = '/' ∨ c = '.' := by
  unfold join at h
  split at h
  · exact .inr (mem_normalize h)
  · exact (mem_normalize h).imp_right .inr
  · rcases mem_normalize h with h | h
    · rcases List.mem_append.mp h with h | h
      · exact .inl h
      · rcases List.mem_cons.mp h with h | h
        · exact .inr (.inr (.inl h))
        · exact .inr (.inl h)
    · exact .inr (.inr h)

/-- The directory of a path is a beginning of it, the root or `.`. -/
theorem mem_parent {p : Text} {c : Char} (h : c ∈ parent p) : c ∈ p ∨ c = '/' ∨ c = '.' := by
  have htrim (t : Text) : c ∈ Text.trimEnd '/' t → c ∈ t :=
    fun hc => (Text.trimEnd_isPrefix '/' t).subset hc
  have hcut (t : Text) : c ∈ (t.reverse.dropWhile (· ≠ '/')).reverse → c ∈ t := fun hc =>
    List.mem_reverse.mp ((List.dropWhile_suffix _).subset (List.mem_reverse.mp hc))
  simp only [parent] at h
  split at h
  · exact .inr (.inr (List.mem_singleton.mp h))
  split at h
  · exact .inr (.inl (List.mem_singleton.mp h))
  split at h
  · split at h
    · exact .inr (.inl (List.mem_singleton.mp h))
    · exact .inl (htrim _ (hcut _ (htrim _ h)))
  · exact .inr (.inr (List.mem_singleton.mp h))

/-! ### Paths that are the same under both conventions -/

/-- The path has nothing that Windows alone gives a meaning to. -/
def IsPlain (p : Text) : Prop := '\\' ∉ p ∧ ':' ∉ p

instance (p : Text) : Decidable (IsPlain p) := inferInstanceAs (Decidable (_ ∧ _))

/-- A path is plain when its characters are those of plain paths, separators and dots. -/
theorem isPlain_of_mem {p : Text} (h : ∀ c ∈ p, (c ≠ '\\' ∧ c ≠ ':') ∨ c = '/' ∨ c = '.') :
    IsPlain p := by
  constructor <;> intro hc <;> simpa using h _ hc

namespace IsPlain

variable {base p : Text}

theorem ne_of_mem (h : IsPlain p) {c : Char} (hc : c ∈ p) : c ≠ '\\' ∧ c ≠ ':' :=
  ⟨ne_of_mem_of_not_mem hc h.1, ne_of_mem_of_not_mem hc h.2⟩

theorem join (hbase : IsPlain base) (h : IsPlain p) : IsPlain (Path.join base p) := by
  refine isPlain_of_mem fun c hc => ?_
  rcases mem_join hc with hc | hc | hc
  · exact .inl (hbase.ne_of_mem hc)
  · exact .inl (h.ne_of_mem hc)
  · exact .inr hc

theorem normalize (h : IsPlain p) : IsPlain (Path.normalize p) :=
  isPlain_of_mem fun _ hc => (mem_normalize hc).imp_left h.ne_of_mem

theorem parent (h : IsPlain p) : IsPlain (Path.parent p) :=
  isPlain_of_mem fun _ hc => (mem_parent hc).imp_left h.ne_of_mem

/-- A path without a colon has no drive. -/
theorem drive_eq_nil (h : IsPlain p) : drive p = [] := by
  by_cases hdrive : drive p = []
  · exact hdrive
  · obtain ⟨letter, rest, -, rfl⟩ := exists_of_drive_ne_nil hdrive
    exact absurd (List.mem_cons_of_mem _ List.mem_cons_self) h.2

theorem normalizeOn_eq (h : IsPlain p) : normalizeOn .windows p = Path.normalize p := by
  have hslash : slash p = p := slash_eq_self h.1
  rw [normalizeOn_of_drive_eq_nil (hslash.symm ▸ h.drive_eq_nil), hslash]

theorem isAbsolute_eq (h : IsPlain p) : isAbsolute .windows p = isAbsolute .posix p := by
  simp only [isAbsolute, h.drive_eq_nil]
  cases p with
  | nil => rfl
  | cons c p =>
    have hc : c ≠ '\\' := (h.ne_of_mem List.mem_cons_self).1
    rw [Bool.eq_iff_iff]
    simp [isSlash, hc]

theorem dirname (h : IsPlain p) : IsPlain (Path.dirname .posix p) := h.parent

/-- The directory of a plain path is the same under both conventions. -/
theorem dirname_eq (h : IsPlain p) : Path.dirname .windows p = Path.dirname .posix p := by
  have hafter : afterDrive p = p := afterDrive_of_drive_eq_nil h.drive_eq_nil
  simp [Path.dirname, slash_eq_self h.1, h.drive_eq_nil, hafter]

theorem anchor (hbase : IsPlain base) (h : IsPlain p) : IsPlain (Path.anchor .posix base p) := by
  rw [Path.anchor]
  split
  · exact h.normalize
  · exact hbase.join h

/-- **A plain path anchored to a plain directory** is the same under both conventions. -/
theorem anchor_eq (hbase : IsPlain base) (h : IsPlain p) :
    Path.anchor .windows base p = Path.anchor .posix base p := by
  have hslash : slash base = base := slash_eq_self hbase.1
  rw [Path.anchor, Path.anchor, h.isAbsolute_eq, hslash, hbase.drive_eq_nil, slash_eq_self h.1]
  split
  · rw [List.nil_append, ite_self, h.normalizeOn_eq]
  · rw [(hbase.join h).normalizeOn_eq, normalize_eq_self_iff.mpr (isWritten_join base p)]

end IsPlain

/-! ### Either slash separates on Windows -/

section Slash

variable (base p : Text)

@[simp] theorem slash_slash : slash (slash p) = slash p := slash_eq_self (not_mem_slash p)

@[simp] theorem slash_eq_nil_iff : slash p = [] ↔ p = [] := List.map_eq_nil_iff

theorem slash_append : slash (base ++ p) = slash base ++ slash p := List.map_append

theorem afterDrive_slash : afterDrive (slash p) = slash (afterDrive p) := by
  rw [afterDrive, drive_slash, afterDrive, slash, slash, List.map_drop]

theorem startsWithSlash_slash : (slash p).head?.any isSlash = p.head?.any isSlash := by
  cases p with
  | nil => rfl
  | cons c p => by_cases hc : c = '\\' <;> simp [slash, isSlash, hc]

theorem isAbsolute_slash : isAbsolute .windows (slash p) = isAbsolute .windows p := by
  simp only [isAbsolute, drive_slash, afterDrive_slash, startsWithSlash_slash]

variable {p} in
/-- Normal forms on Windows are made of what a path is once its separators are written alike. -/
theorem normalizeOn_congr {q : Text} (h : slash p = slash q) :
    normalizeOn .windows p = normalizeOn .windows q := by
  simp only [normalizeOn, h]

theorem dirname_slash : dirname .windows (slash p) = dirname .windows p := by
  simp only [dirname, slash_slash]

/-- **Anchoring does not depend on how separators are written**, in the directory or in the
path. -/
theorem anchor_slash : anchor .windows (slash base) (slash p) = anchor .windows base p := by
  simp only [anchor, isAbsolute_slash, startsWithSlash_slash, slash_slash]
  refine congrArg (fun q => ite _ q _) (normalizeOn_congr ?_)
  split
  · rw [slash_append, slash_append, slash_slash]
  · exact slash_slash p

variable {base p} in
theorem anchor_congr {base' p' : Text} (hbase : slash base = slash base') (h : slash p = slash p') :
    anchor .windows base p = anchor .windows base' p' := by
  rw [← anchor_slash, hbase, h, anchor_slash]

/-- What is anchored on Windows has no backslash. -/
theorem not_mem_anchor : '\\' ∉ anchor .windows base p := (isNormal_anchor .windows base p).1

end Slash

end Path

end ImportAlias
