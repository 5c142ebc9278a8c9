import Mathlib.Data.List.Basic
import ShaderPreview.Program.Basic
import ShaderPreview.Proofs.Removal

/-!
# The textures of a shader

The preamble declares the textures that are left once redeclared built-ins are hidden.  These should
be the textures that the shader itself declares, the mask apart, whatever names the dialect chose.

## 1.  What a shader declares

`Texture.Declares m name` says how a declaration is written, and `Texture.Listed cs names` that going
through the text from left to right finds the declarations of `names` and no others.  Every text has
one such list (`Texture.listed_iff`).

## 2.  First occurrences

`FirstOccurrences` says which names are taken from a list and in which order, without saying how.

## 3.  Hiding built-ins first

Of the textures only the mask is a built-in, so hiding built-ins takes nothing else from the list:
`filter_names_hideBuiltins`.  With this, `textures_firstOccurrences` is about the shader as it was
written.
-/

namespace ShaderPreview

open Text

/-! ## 1.  What a shader declares -/

namespace Texture

/-- The text is `uniform`, one of the two types, the name and a semicolon, with blanks between them. -/
def Declares (m : List Char) (name : String) : Prop :=
  IsWord name ∧ ∃ type ∈ types,
    Reads [.text "uniform", .gap, .text type, .gap, .text name, .blanks, .text ";"] m []

/-- Going through the text from left to right, the declarations of these textures are found: each as
soon as it starts, and the search goes on behind it. -/
inductive Listed : List Char → List String → Prop
  | nil : Listed [] []
  | declared {m rest : List Char} {name : String} {names : List String} (hm : Declares m name)
      (h : Listed rest names) : Listed (m ++ rest) (name :: names)
  | skipped {c : Char} {cs : List Char} {names : List String}
      (hnone : ∀ m rest name, c :: cs = m ++ rest → ¬ Declares m name)
      (h : Listed cs names) : Listed (c :: cs) names

variable {cs m rest : List Char} {s : Statement} {names : List String}

/-- What the pattern for textures reads is a declaration. -/
theorem declares_of_read? (h : pattern.read? (m ++ rest) = some (s, rest)) : Declares m s.name := by
  obtain ⟨hread, hok⟩ := Pattern.read?_filter_iff.1 h
  obtain ⟨htype, hname⟩ := isTexture_iff.1 hok
  obtain ⟨hs, hr⟩ := Statement.reads_of_read? hread
  obtain ⟨m', heq, hm'⟩ := reads_iff.1 hr
  rw [List.append_left_inj] at heq
  rw [heq]
  exact ⟨⟨hname, hs.name_within⟩, s.type, htype, hm'⟩

/-- A declaration is read by the pattern, whatever stands behind it. -/
theorem exists_read?_of_declares {name : String} (h : Declares m name) (rest : List Char) :
    ∃ type, pattern.read? (m ++ rest) = some (⟨type, name⟩, rest) := by
  obtain ⟨hname, type, htype, hr⟩ := h
  have hword : ∀ t ∈ types, t ≠ "" ∧ Within isWordChar t.toList := by decide
  have hs : Statement.Proper ⟨type, name⟩ :=
    ⟨⟨(hword type htype).1, (hword type htype).2⟩, hname.within⟩
  have hread := Statement.read?_of_reads hs (hr.append rest)
  exact ⟨type, Pattern.read?_filter_iff.2 ⟨hread, isTexture_iff.2 ⟨htype, hname.ne_empty⟩⟩⟩

/-- The list of a text is what the pattern for textures finds in it. -/
theorem listed_iff : Listed cs names ↔ names = (pattern.values cs).map Statement.name := by
  constructor
  · intro h
    induction h with
    | nil => simp
    | @declared m rest name names hm _ ih =>
      obtain ⟨type, hread⟩ := exists_read?_of_declares hm rest
      rw [Pattern.values_of_read? hread, List.map_cons, ih]
    | @skipped c cs names hnone _ ih =>
      have hread : pattern.read? (c :: cs) = none := by
        rw [Option.eq_none_iff_forall_ne_some]
        rintro ⟨s, rest⟩ hread
        obtain ⟨m, -, heq⟩ := Pattern.exists_append_of_read? hread
        rw [heq] at hread
        exact hnone m rest s.name heq (declares_of_read? hread)
      rw [Pattern.values_of_read?_eq_none hread, ih]
  · rintro rfl
    induction cs using Pattern.occurrence_induction pattern with
    | nil =>
      rw [Pattern.values_nil]
      exact .nil
    | found m s rest _ hread ih =>
      rw [Pattern.values_of_read? hread, List.map_cons]
      exact .declared (declares_of_read? hread) ih
    | plain c cs hread ih =>
      rw [Pattern.values_of_read?_eq_none hread]
      refine .skipped ?_ ih
      intro m rest name heq hm
      obtain ⟨type, hsome⟩ := exists_read?_of_declares hm rest
      rw [← heq, hread] at hsome
      simp at hsome

end Texture

/-! ## 2.  First occurrences -/

/-- The list `ts` has the members of `names` that are kept, each once, in the order in which they first
occur. -/
structure FirstOccurrences (keep : String → Prop) (names ts : List String) : Prop where
  mem_iff : ∀ t, t ∈ ts ↔ t ∈ names ∧ keep t
  in_order : ts.Pairwise fun t u => names.idxOf t < names.idxOf u

section FirstOccurrences

variable {keep : String → Bool} {t u : String} {names : List String}

theorem FirstOccurrences.nodup {P : String → Prop} {ts : List String}
    (h : FirstOccurrences P names ts) : ts.Nodup :=
  h.in_order.imp fun hlt => by
    rintro rfl
    exact Nat.lt_irrefl _ hlt

/-- Dropping names does not change which of two others comes first. -/
theorem idxOf_lt_of_filter (hu : keep u = true)
    (h : (names.filter keep).idxOf t < (names.filter keep).idxOf u) :
    names.idxOf t < names.idxOf u := by
  induction names with
  | nil => simp at h
  | cons n names ih =>
    rw [List.filter_cons] at h
    by_cases hnu : n = u
    · subst hnu
      rw [if_pos hu, List.idxOf_cons_self] at h
      exact absurd h (Nat.not_lt_zero _)
    · rw [List.idxOf_cons_ne _ hnu]
      by_cases hnt : n = t
      · rw [hnt, List.idxOf_cons_self]
        exact Nat.succ_pos _
      · rw [List.idxOf_cons_ne _ hnt]
        refine Nat.succ_lt_succ (ih ?_)
        split at h
        · rw [List.idxOf_cons_ne _ hnt, List.idxOf_cons_ne _ hnu] at h
          exact Nat.lt_of_succ_lt_succ h
        · exact h

/-- A list without its repetitions is in the order of the list. -/
theorem pairwise_eraseDups : ∀ names : List String,
    names.eraseDups.Pairwise fun t u => names.idxOf t < names.idxOf u
  | [] => by simp
  | n :: names => by
    rw [List.eraseDups_cons, List.pairwise_cons]
    refine ⟨fun u hu => ?_, ?_⟩
    · have hne : n ≠ u := by
        rintro rfl
        simp at hu
      rw [List.idxOf_cons_self, List.idxOf_cons_ne _ hne]
      exact Nat.succ_pos _
    · refine (pairwise_eraseDups (names.filter fun u => !u == n)).imp_of_mem fun {t u} ht hu h => ?_
      rw [List.mem_eraseDups, List.mem_filter] at ht hu
      have hnt : n ≠ t := by
        rintro rfl
        simp at ht
      have hnu : n ≠ u := by
        rintro rfl
        simp at hu
      rw [List.idxOf_cons_ne _ hnt, List.idxOf_cons_ne _ hnu]
      exact Nat.succ_lt_succ (idxOf_lt_of_filter hu.2 h)
termination_by names => names.length
decreasing_by
  rw [List.length_cons]
  exact Nat.lt_succ_of_le (List.length_filter_le _ _)

/-- Dropping names and then repetitions leaves the first occurrences of the others. -/
theorem firstOccurrences_eraseDups (keep : String → Bool) (names : List String) :
    FirstOccurrences (fun t => keep t = true) names (names.filter keep).eraseDups where
  mem_iff := by
    intro t
    rw [List.mem_eraseDups, List.mem_filter]
  in_order := by
    refine (pairwise_eraseDups (names.filter keep)).imp_of_mem fun _ hu h => ?_
    rw [List.mem_eraseDups, List.mem_filter] at hu
    exact idxOf_lt_of_filter hu.2 h

end FirstOccurrences

/-! ## 3.  Hiding built-ins first -/

section Hiding

variable {d : Dialect} {s : Statement}

/-- Of the built-ins only the mask is a texture. -/
theorem name_eq_mask (htexture : isTexture s = true) (hhidden : isHidden d s = true) :
    s.name = d.mask := by
  have hother : ∀ type ∈ Texture.types, type ∉ ["vec2", "float2"] ∧ type ∉ ["float"] ∧
      type ∉ ["vec2", "float2", "vec4", "float4"] := by
    decide
  obtain ⟨hvec2, hfloat, hvec⟩ := hother s.type (isTexture_iff.1 htexture).1
  obtain ⟨b, hb, hs⟩ := List.any_eq_true.1 hhidden
  rw [Builtin.redeclares, Bool.and_eq_true, List.contains_iff_mem, List.contains_iff_mem] at hs
  simp only [Builtin.ofDialect, List.mem_cons, List.not_mem_nil, or_false] at hb
  rcases hb with rfl | rfl | rfl | rfl | rfl
  · exact absurd hs.1 hvec2
  · exact absurd hs.1 hvec2
  · exact absurd hs.1 hfloat
  · exact absurd hs.1 hvec
  · exact List.mem_singleton.1 hs.2

/-- Hiding built-ins takes the mask from the textures at most. -/
theorem filter_names_hideBuiltins (d : Dialect) (cs : List Char) :
    ((Texture.pattern.values (hideBuiltins d cs)).map Statement.name).filter (· != d.mask) =
      ((Texture.pattern.values cs).map Statement.name).filter (· != d.mask) := by
  have hvalues : Texture.pattern.values (hideBuiltins d cs) =
      (Texture.pattern.values cs).filter fun s => !isHidden d s := by
    rw [hideBuiltins_eq]
    exact Statement.values_replace_comment (separate_isHidden d) separate_isTexture cs
  rw [hvalues, List.filter_map, List.filter_map, List.filter_filter]
  refine congrArg (List.map Statement.name) (List.filter_congr fun s hs => ?_)
  have htexture : isTexture s = true := Pattern.of_mem_values_filter hs
  cases hhidden : isHidden d s with
  | false => simp
  | true => simp [name_eq_mask htexture hhidden]

/-- The textures of a program, from those that the shader declares. -/
theorem Program.firstOccurrences_textures (d : Dialect) (source : String) :
    FirstOccurrences (· ≠ d.mask) ((Texture.pattern.values source.toList).map Statement.name)
      (Program.ofSource d source).textures := by
  have htextures : (Program.ofSource d source).textures =
      (((Texture.pattern.values source.toList).map Statement.name).filter (· != d.mask)).eraseDups := by
    rw [← filter_names_hideBuiltins d source.toList]
    rfl
  rw [htextures]
  simpa only [bne_iff_ne] using firstOccurrences_eraseDups (· != d.mask) _

end Hiding

/-- The textures of a program are those that the shader declares, as it was written, in the order of
their first declarations and each once; only the mask is left out.  Hiding the built-ins first makes
no difference to them. -/
theorem textures_firstOccurrences (d : Dialect) (source : String) :
    ∃ names kept : List String,
      (∀ ns, Texture.Listed source.toList ns ↔ ns = names) ∧
      (∀ ns, Texture.Listed (hideBuiltins d source.toList) ns ↔ ns = kept) ∧
      kept.filter (· != d.mask) = names.filter (· != d.mask) ∧
      FirstOccurrences (· ≠ d.mask) names (Program.ofSource d source).textures := by
  exact ⟨_, _, fun ns => Texture.listed_iff, fun ns => Texture.listed_iff,
    filter_names_hideBuiltins d source.toList, Program.firstOccurrences_textures d source⟩

end ShaderPreview
