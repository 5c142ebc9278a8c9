import ShaderPreview.Proofs.Comments
import ShaderPreview.Proofs.Pattern.Free
import ShaderPreview.Proofs.Textures

/-!
# Removed declarations stay removed

Once the declarations of built-ins and textures are removed, none should be left, and later stages
should not make new ones.

## 1.  Cleared texts

`Cleared d cs` says that no part of a text is a declaration that one of the six patterns describes.
As declarations of all six are statements, this is the absence of one pattern (`cleared_iff`).

## 2.  What the comments leave

The comment for a moved texture ends in the texture's name, and what stood behind the declaration now
stands right behind the name.  If the name ends in a beginning of `uniform` and the text goes on with
the rest of it, the two are joined to a new declaration: `Joins`.  This is the only way in which a
declaration comes about, since the other comments do not end in a name (`joined_of_read?_note`).

The stages for calls, loops and the entry function put in inert texts, so they keep a text cleared.
-/

namespace ShaderPreview

open Text

/-! ## 1.  Cleared texts -/

/-- The patterns of the declarations that are removed: five for built-ins and one for textures. -/
def removedPatterns (d : Dialect) : List (Pattern Statement) :=
  (Builtin.ofDialect d).map Builtin.pattern ++ [Texture.pattern]

/-- No part of the text matches one of the patterns. -/
def Cleared (d : Dialect) (cs : List Char) : Prop :=
  ∀ p ∈ removedPatterns d, ∀ t, t <:+: cs → ∀ s, p.read? t ≠ some (s, [])

section Cleared

variable {d : Dialect} {s : Statement} {cs rest : List Char}

theorem texturePattern_mem (d : Dialect) : Texture.pattern ∈ removedPatterns d :=
  List.mem_append_right _ (List.mem_singleton_self _)

/-- What one of the patterns reads is a declaration that is removed, and the other way round. -/
theorem exists_mem_removedPatterns_iff :
    (∃ p ∈ removedPatterns d, p.read? cs = some (s, rest)) ↔
      (removal d).read? cs = some (s, rest) := by
  constructor
  · rintro ⟨p, hp, hread⟩
    rcases List.mem_append.1 hp with hp | hp
    · obtain ⟨b, hb, rfl⟩ := List.mem_map.1 hp
      obtain ⟨hread, hs⟩ := Pattern.read?_filter_iff.1 hread
      have hhidden : isHidden d s = true := List.any_eq_true.2 ⟨b, hb, hs⟩
      exact Pattern.read?_filter_iff.2 ⟨hread, by rw [hhidden, Bool.true_or]⟩
    · rw [List.mem_singleton.1 hp] at hread
      obtain ⟨hread, hs⟩ := Pattern.read?_filter_iff.1 hread
      have htexture : isTexture s = true := hs
      exact Pattern.read?_filter_iff.2 ⟨hread, by rw [htexture, Bool.or_true]⟩
  · intro h
    obtain ⟨hread, hs⟩ := Pattern.read?_filter_iff.1 h
    rcases Bool.or_eq_true_iff.1 hs with hhidden | htexture
    · obtain ⟨b, hb, hs⟩ := List.any_eq_true.1 hhidden
      exact ⟨b.pattern, List.mem_append_left _ (List.mem_map_of_mem hb),
        Pattern.read?_filter_iff.2 ⟨hread, hs⟩⟩
    · exact ⟨Texture.pattern, texturePattern_mem d, Pattern.read?_filter_iff.2 ⟨hread, htexture⟩⟩

/-- An occurrence of a declaration that is removed is one whatever stands behind it. -/
theorem removal_read?_append {m : List Char} (h : (removal d).read? (m ++ rest) = some (s, rest))
    (k : List Char) : (removal d).read? (m ++ k) = some (s, k) := by
  obtain ⟨hread, hs⟩ := Pattern.read?_filter_iff.1 h
  exact Pattern.read?_filter_iff.2 ⟨Statement.read?_append_of_read? hread k, hs⟩

theorem cleared_iff : Cleared d cs ↔ (removal d).Free cs := by
  constructor
  · rintro h x k rfl
    rw [Option.eq_none_iff_forall_ne_some]
    rintro ⟨s, rest⟩ hread
    obtain ⟨m, -, rfl⟩ := Pattern.exists_append_of_read? hread
    have hm := removal_read?_append hread []
    rw [List.append_nil] at hm
    obtain ⟨p, hp, hread⟩ := exists_mem_removedPatterns_iff.2 hm
    exact h p hp m ⟨x, rest, List.append_assoc ..⟩ s hread
  · rintro h p hp t ⟨x, k, rfl⟩ s hread
    have ht := exists_mem_removedPatterns_iff.1 ⟨p, hp, hread⟩
    rw [← List.append_nil t] at ht
    have hnone := h x (t ++ k) (List.append_assoc ..)
    rw [removal_read?_append ht k] at hnone
    simp at hnone

end Cleared

/-! ## 2.  What the comments leave -/

/-- Some texture other than the mask is declared, and an end of its name, joined with the text behind
the declaration, starts with a declaration that is removed. -/
def Joins (d : Dialect) (cs : List Char) : Prop :=
  ∃ x m rest name v, cs = x ++ (m ++ rest) ∧ Texture.Declares m name ∧ name ≠ d.mask ∧
    v ≠ [] ∧ v <:+ name.toList ∧ ∃ p ∈ removedPatterns d, (p.read? (v ++ rest)).isSome = true

section Joins

variable {d : Dialect} {s : Statement} {cs rest u v k : List Char}

theorem isSome_removedPatterns_iff :
    (∃ p ∈ removedPatterns d, (p.read? cs).isSome = true) ↔ (removal d).read? cs ≠ none := by
  simp only [Option.ne_none_iff_isSome, Option.isSome_iff_exists, Prod.exists]
  constructor
  · rintro ⟨p, hp, s, rest, hread⟩
    exact ⟨s, rest, exists_mem_removedPatterns_iff.1 ⟨p, hp, hread⟩⟩
  · rintro ⟨s, rest, hread⟩
    obtain ⟨p, hp, hread⟩ := exists_mem_removedPatterns_iff.2 hread
    exact ⟨p, hp, s, rest, hread⟩

theorem Joins.append (h : Joins d cs) (x : List Char) : Joins d (x ++ cs) := by
  obtain ⟨y, m, rest, name, v, rfl, h⟩ := h
  exact ⟨x ++ y, m, rest, name, v, (List.append_assoc ..).symm, h⟩

theorem head?_note (d : Dialect) (s : Statement) : (note d s).head? = some '/' := by
  unfold note
  split
  · exact Statement.head?_comment s
  · unfold Texture.comment
    split
    · decide
    · rfl

/-- A texture other than the mask is moved. -/
theorem note_eq_moved (htexture : isTexture s = true) (hmask : s.name ≠ d.mask) :
    note d s = "// moved ".toList ++ s.name.toList := by
  have hhidden : isHidden d s ≠ true := fun h => hmask (name_eq_mask htexture h)
  unfold note Texture.comment
  rw [if_neg hhidden, if_neg hmask]

/-- Nothing opens inside the comment for the mask. -/
theorem inert_maskComment : Inert "// built-in mask".toList := by
  have hparts : "// built-in mask".toList =
      "// b".toList ++ ("uilt".toList ++ "-in mask".toList) := by
    decide
  refine inert_of_reads [.text "// b", .text "uilt", .text "-in mask"] ?_ ?_ ?_
  · exact ⟨Or.inl (by decide), Or.inr ⟨by decide, Or.inl (by decide)⟩, Or.inl (by decide), trivial⟩
  · exact Or.inr ⟨'/', by decide, by decide⟩
  · rw [hparts]
    exact .text_append (.text_append (reads_text_last _))

/-- A declaration that starts inside a comment starts inside the name of a moved texture. -/
theorem joined_of_read?_note (hs : s.Proper) (hok : (isHidden d s || isTexture s) = true)
    (huv : note d s = u ++ v) (hv : v ≠ []) (hread : (removal d).read? (v ++ k) ≠ none) :
    isTexture s = true ∧ s.name ≠ d.mask ∧ v <:+ s.name.toList := by
  obtain ⟨⟨s', r⟩, hread'⟩ := Option.ne_none_iff_exists'.1 hread
  have hopens := Statement.opens_of_read? (Pattern.read?_filter_iff.1 hread').1
  unfold note at huv
  cases hhidden : isHidden d s with
  | true =>
    rw [if_pos hhidden] at huv
    exact absurd (Statement.read?_comment_eq_none (separate_removal d) hs huv hv k) hread
  | false =>
    rw [hhidden, Bool.false_or] at hok
    rw [hhidden, if_neg Bool.false_ne_true] at huv
    unfold Texture.comment at huv
    split at huv
    · exact absurd hopens (inert_maskComment.not_opens k huv hv)
    · next hmask =>
      refine ⟨hok, hmask, ?_⟩
      rcases List.append_eq_append_iff.1 huv with ⟨w, -, hname⟩ | ⟨w, hword, rfl⟩
      · exact ⟨w, hname.symm⟩
      · cases w with
        | nil => exact List.suffix_rfl
        | cons c w =>
          -- there is no letter `u` in front of the name
          obtain ⟨_, hk⟩ := hopens.exists_cons
          obtain ⟨rfl, -⟩ := List.cons.inj hk
          have hmem : 'u' ∈ "// moved ".toList := by rw [hword]; simp
          exact absurd hmem (by decide)

/-- A declaration that starts with the end of a name is not changed in the text behind the name. -/
theorem read?_append_noted_ne_none (hv : v ≠ []) (h : (removal d).read? (v ++ rest) ≠ none) :
    (removal d).read? (v ++ noted d rest) ≠ none := by
  obtain ⟨⟨s, r⟩, hread⟩ := Option.ne_none_iff_exists'.1 h
  obtain ⟨m, -, heq⟩ := Pattern.exists_append_of_read? hread
  rw [heq] at hread
  rcases List.append_eq_append_iff.1 heq with ⟨w, rfl, rfl⟩ | ⟨w, rfl, -⟩
  · have hspares := removal_spares hread
    have hkept : noted d (w ++ r) = w ++ noted d r := by
      refine Pattern.replace_append_of_none fun u' v' hw hv' => ?_
      exact hspares.inside (u := v ++ u') (by rw [hw, List.append_assoc])
        (List.append_ne_nil_of_left_ne_nil hv _) hv'
    rw [hkept, ← List.append_assoc, removal_read?_append hread]
    exact Option.some_ne_none _
  · rw [List.append_assoc, removal_read?_append hread]
    exact Option.some_ne_none _

/-- The noted text has a declaration that is removed just where one was joined. -/
theorem free_noted_iff : (removal d).Free (noted d cs) ↔ ¬ Joins d cs := by
  constructor
  · rintro hfree ⟨x, m, rest, name, v, rfl, hm, hmask, hv, ⟨u, hu⟩, hjoined⟩
    obtain ⟨type, hread⟩ := Texture.exists_read?_of_declares hm rest
    have htexture : isTexture ⟨type, name⟩ = true := (Pattern.read?_filter_iff.1 hread).2
    have hremoved : (removal d).read? (m ++ rest) = some (⟨type, name⟩, rest) :=
      exists_mem_removedPatterns_iff.1 ⟨Texture.pattern, texturePattern_mem d, hread⟩
    obtain ⟨y, hy⟩ : noted d (m ++ rest) <:+ noted d (x ++ (m ++ rest)) :=
      (removal_spares hremoved).suffix_replace x rest
    rw [← hy, noted_append hremoved, note_eq_moved htexture hmask, ← hu] at hfree
    have hnone := hfree (y ++ ("// moved ".toList ++ u)) (v ++ noted d rest)
      (by simp only [List.append_assoc])
    exact read?_append_noted_ne_none hv (isSome_removedPatterns_iff.1 hjoined) hnone
  · intro hjoins
    induction cs using Pattern.occurrence_induction (removal d) with
    | nil =>
      rw [noted, Pattern.replace_nil]
      exact Pattern.free_nil
    | found m s rest _ hread ih =>
      rw [noted_append hread]
      refine Pattern.free_append_iff.2 ⟨fun u v huv hv => ?_, ih fun h => hjoins (h.append m)⟩
      by_contra hne
      obtain ⟨hread', hok⟩ := Pattern.read?_filter_iff.1 hread
      obtain ⟨htexture, hmask, hsuffix⟩ := joined_of_read?_note (removal_proper hread) hok huv hv hne
      have hdeclares : Texture.Declares m s.name :=
        Texture.declares_of_read? (Pattern.read?_filter_iff.2 ⟨hread', htexture⟩)
      refine hjoins ⟨[], m, rest, s.name, v, rfl, hdeclares, hmask, hv, hsuffix,
        isSome_removedPatterns_iff.2 fun hnone => hne ?_⟩
      exact Statement.read?_append_replace_eq_none (head?_note d) hnone
    | plain c cs hread ih =>
      rw [noted_cons hread]
      refine Pattern.free_cons_iff.2 ⟨?_, ih fun h => hjoins (h.append [c])⟩
      exact Statement.read?_append_replace_eq_none (head?_note d) (v := [c]) hread

end Joins

/-- After the declarations of built-ins and textures are removed, none is left, if and only if none is
joined from a texture's name and the text behind its declaration.  The stages for calls, loops and
the entry function make no such declaration. -/
theorem cleared_iff_not_joins (d : Dialect) (source : String) :
    (Cleared d (moveTextures d (hideBuiltins d source.toList)) ↔ ¬ Joins d source.toList) ∧
      ∀ cs, Cleared d cs → Cleared d (flattenCalls cs) ∧ Cleared d (countInWholeNumbers cs) ∧
        Cleared d (renameEntry d cs) := by
  constructor
  · rw [moveTextures_hideBuiltins, cleared_iff]
    exact free_noted_iff
  · intro cs h
    rw [cleared_iff] at h
    simp only [cleared_iff]
    exact ⟨free_flattenCalls h, free_countInWholeNumbers h, free_renameEntry d h⟩

/-- The name `u` and the text `niform shader x;` behind its declaration are joined. -/
theorem name_joined :
    (∀ t ∈ userTextures .standard "uniform shader u;niform shader x;".toList,
        ¬ "uniform".toList <:+ t.toList) ∧
      ¬ Cleared .standard (moveTextures .standard (hideBuiltins .standard
        "uniform shader u;niform shader x;".toList)) := by
  refine ⟨by decide +kernel, fun h => ?_⟩
  have hmoved : moveTextures .standard (hideBuiltins .standard
      "uniform shader u;niform shader x;".toList) =
      "// moved ".toList ++ "uniform shader x;".toList := by
    decide +kernel
  rw [hmoved] at h
  refine h Texture.pattern (texturePattern_mem _) "uniform shader x;".toList
    (List.suffix_append _ _).isInfix ⟨"shader", "x"⟩ ?_
  decide +kernel

end ShaderPreview
