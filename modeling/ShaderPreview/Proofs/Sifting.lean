import ShaderPreview.Proofs.Declarations

/-!
# Which declarations are kept

Of the uniforms that the lines of a shader declare, those with a reserved name and those with the
name of an earlier one are skipped.  The search remembers the names it has reported, so what becomes
of a line depends on all lines above it.

`Uniform.kept reserved seen us` is what is kept of the declarations `us`, when the names `seen` have
been reported before.  Reserved names and seen ones are skipped alike, and skipping more of them
takes out exactly these: `kept_eq_filter`.  Everything else follows from it.

* `name_of_mem_kept`, `nodup_names_kept`: the names that are kept are new and distinct;
* `kept_append`: what a second list of declarations adds to a first one;
* `Uniform.ofSource_composes`: the same for shaders, one below the other.
-/

namespace ShaderPreview

open Text

namespace Uniform

/-- The declarations that are kept, when some names are reserved and some have been seen. -/
def kept (reserved seen : List String) (us : List Uniform) : List Uniform :=
  (Finding.sift reserved seen us).filterMap Finding.uniform?

variable {reserved reserved' seen seen' : List String} {u : Uniform} {us vs : List Uniform}

theorem kept_cons_of_skipped (h : u.name ∈ reserved ∨ u.name ∈ seen) :
    kept reserved seen (u :: us) = kept reserved seen us := by
  rw [kept, Finding.sift, if_pos h]
  rfl

theorem kept_cons_of_new (h : ¬ (u.name ∈ reserved ∨ u.name ∈ seen)) :
    kept reserved seen (u :: us) = u :: kept reserved (u.name :: seen) us := by
  rw [kept, Finding.sift, if_neg h]
  rfl

theorem ofSource_eq_kept (d : Dialect) (source : String) :
    ofSource d source = kept d.reserved [] ((lines source.toList).filterMap ofLine?) := rfl

/-- No name that is kept is reserved or has been seen. -/
theorem name_of_mem_kept (h : u ∈ kept reserved seen us) :
    ¬ (u.name ∈ reserved ∨ u.name ∈ seen) := by
  induction us generalizing seen with
  | nil => exact absurd h List.not_mem_nil
  | cons v us ih =>
    by_cases hv : v.name ∈ reserved ∨ v.name ∈ seen
    · rw [kept_cons_of_skipped hv] at h
      exact ih h
    · rw [kept_cons_of_new hv, List.mem_cons] at h
      rcases h with rfl | h
      · exact hv
      · exact fun hu => ih h (hu.imp_right (List.mem_cons_of_mem _))

theorem nodup_names_kept : ((kept reserved seen us).map name).Nodup := by
  induction us generalizing seen with
  | nil => exact List.nodup_nil
  | cons u us ih =>
    by_cases hu : u.name ∈ reserved ∨ u.name ∈ seen
    · rw [kept_cons_of_skipped hu]
      exact ih
    · rw [kept_cons_of_new hu, List.map_cons, List.nodup_cons]
      refine ⟨fun hmem => ?_, ih⟩
      obtain ⟨v, hv, hname⟩ := List.mem_map.1 hmem
      exact name_of_mem_kept hv (Or.inr (by rw [hname]; exact List.mem_cons_self ..))

/-- Skipping more names takes out exactly the declarations with these names. -/
theorem kept_eq_filter
    (h : ∀ n, n ∈ reserved ∨ n ∈ seen → n ∈ reserved' ∨ n ∈ seen') :
    kept reserved' seen' us =
      (kept reserved seen us).filter fun u => ¬ (u.name ∈ reserved' ∨ u.name ∈ seen') := by
  induction us generalizing seen seen' with
  | nil => rfl
  | cons u us ih =>
    by_cases hu' : u.name ∈ reserved' ∨ u.name ∈ seen'
    · rw [kept_cons_of_skipped hu']
      by_cases hu : u.name ∈ reserved ∨ u.name ∈ seen
      · rw [kept_cons_of_skipped hu]
        exact ih h
      · rw [kept_cons_of_new hu,
          List.filter_cons_of_neg (by rw [decide_eq_true_eq]; exact not_not_intro hu')]
        refine ih fun n hn => ?_
        rw [List.mem_cons, or_left_comm] at hn
        rcases hn with rfl | hn
        · exact hu'
        · exact h n hn
    · have hu : ¬ (u.name ∈ reserved ∨ u.name ∈ seen) := fun hu => hu' (h _ hu)
      rw [kept_cons_of_new hu', kept_cons_of_new hu,
        List.filter_cons_of_pos (by rw [decide_eq_true_eq]; exact hu')]
      have hstep : ∀ n, n ∈ reserved ∨ n ∈ u.name :: seen →
          n ∈ reserved' ∨ n ∈ u.name :: seen' := by
        intro n hn
        rw [List.mem_cons, or_left_comm] at hn ⊢
        exact hn.imp_right (h n)
      rw [ih hstep]
      -- nothing that is kept behind this declaration has its name
      refine congrArg (u :: ·) (List.filter_congr fun v hv => ?_)
      have hne : v.name ≠ u.name := fun heq =>
        name_of_mem_kept hv (Or.inr (by rw [heq]; exact List.mem_cons_self ..))
      simp only [List.mem_cons, hne, false_or]

/-- A second list of declarations adds those with names that the first one does not have. -/
theorem kept_append : kept reserved seen (us ++ vs) = kept reserved seen us ++
    (kept reserved seen vs).filter fun v => v.name ∉ (kept reserved seen us).map name := by
  induction us generalizing seen with
  | nil => exact (List.filter_eq_self.2 fun v _ => decide_eq_true List.not_mem_nil).symm
  | cons u us ih =>
    by_cases hu : u.name ∈ reserved ∨ u.name ∈ seen
    · rw [List.cons_append, kept_cons_of_skipped hu, kept_cons_of_skipped hu]
      exact ih
    · have hvs : kept reserved (u.name :: seen) vs = (kept reserved seen vs).filter _ :=
        kept_eq_filter fun n hn => hn.imp_right (List.mem_cons_of_mem _)
      rw [List.cons_append, kept_cons_of_new hu, kept_cons_of_new hu, List.cons_append, ih, hvs,
        List.filter_filter]
      refine congrArg (fun ws => u :: (kept reserved (u.name :: seen) us ++ ws))
        (List.filter_congr fun v hv => ?_)
      obtain ⟨hreserved, hseen⟩ := not_or.1 (name_of_mem_kept hv)
      rw [Bool.eq_iff_iff]
      simp only [Bool.and_eq_true, decide_eq_true_eq, List.map_cons, List.mem_cons, not_or]
      exact ⟨fun h => ⟨h.2.2.1, h.1⟩, fun h => ⟨h.2, hreserved, h.1, hseen⟩⟩

/-- The uniforms of two shaders, one below the other, are those of the first and then those of the
second with other names.  Names are never repeated or reserved, and a dialect that reserves more
names takes out exactly the uniforms with these names. -/
theorem ofSource_composes (d : Dialect) :
    (∀ a b : String, ofSource d (a ++ "\n" ++ b) = ofSource d a ++
        (ofSource d b).filter fun u => u.name ∉ (ofSource d a).map name) ∧
      (∀ s : String, ((ofSource d s).map name).Nodup ∧ ∀ u ∈ ofSource d s, u.name ∉ d.reserved) ∧
      ∀ d' : Dialect, d.reserved ⊆ d'.reserved → ∀ s : String,
        ofSource d' s = (ofSource d s).filter fun u => u.name ∉ d'.reserved := by
  refine ⟨fun a b => ?_, fun s => ⟨nodup_names_kept, fun u hu hmem => ?_⟩, fun d' hd s => ?_⟩
  · have hlist : (a ++ "\n" ++ b).toList = a.toList ++ '\n' :: b.toList := by
      rw [String.toList_append, String.toList_append, List.append_assoc]
      rfl
    rw [ofSource_eq_kept d a, ofSource_eq_kept d b, ofSource_eq_kept, hlist, lines_append_newline,
      List.filterMap_append, kept_append]
  · exact name_of_mem_kept hu (Or.inl hmem)
  · have hmore : ∀ n, n ∈ d.reserved ∨ n ∈ [] → n ∈ d'.reserved ∨ n ∈ [] :=
      fun n hn => hn.imp_left fun h => hd h
    rw [ofSource_eq_kept, kept_eq_filter hmore, ofSource_eq_kept]
    simp only [List.not_mem_nil, or_false]

/-- A shader in which names are declared again, and a dialect that reserves one of them. -/
theorem ofSource_composes_of_repeated_names :
    ∃ d' : Dialect, Dialect.standard.reserved ⊆ d'.reserved ∧ "tint" ∈ d'.reserved ∧
      ofSource .standard ("uniform half4 tint;\nuniform float speed;\nuniform float iTime;" ++
        "\n" ++ "uniform int speed;\nuniform vec2 centre;\nuniform vec3 tint;") =
        [⟨"tint", "half4", false⟩, ⟨"speed", "float", false⟩, ⟨"centre", "vec2", false⟩] ∧
      ofSource d' ("uniform half4 tint;\nuniform float speed;\nuniform float iTime;" ++ "\n" ++
        "uniform int speed;\nuniform vec2 centre;\nuniform vec3 tint;") =
        [⟨"speed", "float", false⟩, ⟨"centre", "vec2", false⟩] := by
  let d' : Dialect :=
    { Dialect.standard with
      resolutionAliases := ["resolution", "uResolution", "tint"]
      identifiers := by decide, resolution_not_alias := by decide }
  obtain ⟨happend, -, hreserve⟩ := ofSource_composes .standard
  have hsubset : Dialect.standard.reserved ⊆ d'.reserved := by decide
  have hkept : ofSource .standard
      ("uniform half4 tint;\nuniform float speed;\nuniform float iTime;" ++ "\n" ++
        "uniform int speed;\nuniform vec2 centre;\nuniform vec3 tint;") =
      [⟨"tint", "half4", false⟩, ⟨"speed", "float", false⟩, ⟨"centre", "vec2", false⟩] := by
    rw [happend]
    decide +kernel
  refine ⟨d', hsubset, by decide, hkept, ?_⟩
  rw [hreserve d' hsubset, hkept]
  decide +kernel

end Uniform
end ShaderPreview
