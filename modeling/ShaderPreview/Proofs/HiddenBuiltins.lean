import ShaderPreview.Program.Preamble
import ShaderPreview.Proofs.Pattern.Free
import ShaderPreview.Proofs.Removal

/-!
# Hidden built-ins

Built-ins are hidden in five passes, and each pass puts comments into the text that the next one
searches.  A dialect chooses the names, and may choose the same name twice, no alias at all, or names
like `uniform` and `vec2`.  None of this matters: the five passes are one pass in disguise
(`foldl_hide_eq`), in whatever order they are made, and what they leave has nothing more to hide.

* `Builtin.Declares`: how a built-in is declared again, part by part;
* `Builtin.exists_read?_iff`: the pattern of a built-in accepts exactly this;
* `free_hideBuiltins`: after hiding, no declaration is found;
* `foldl_hide_of_perm`: the order of the passes makes no difference;
* `hideBuiltins_settles`: all of this for every dialect and every text.
-/

namespace ShaderPreview

open Text

/-! ## Declarations of built-ins -/

namespace Builtin

/-- The text is `uniform`, one of the types of the built-in, one of its names and a semicolon, with
blanks between them. -/
def Declares (b : Builtin) (m : List Char) : Prop :=
  ∃ type ∈ b.types, ∃ name ∈ b.names,
    Reads [.text "uniform", .gap, .text type, .gap, .text name, .blanks, .text ";"] m []

variable {d : Dialect} {b : Builtin}

/-- The types at which built-ins are hidden are words. -/
theorem isWord_of_mem_types (hb : b ∈ ofDialect d) {type : String} (h : type ∈ b.types) :
    IsWord type := by
  have hwords : ∀ t ∈ hiddenTypes, t ≠ "" ∧ Within isWordChar t.toList := by decide
  obtain ⟨hne, hwithin⟩ := hwords type (mem_hiddenTypes hb h)
  exact ⟨hne, hwithin⟩

/-- The names of a built-in are names of the dialect, or missing if there is no alias. -/
theorem eq_empty_or_mem_names (hb : b ∈ ofDialect d) {name : String} (h : name ∈ b.names) :
    name = "" ∨ name ∈ d.names := by
  simp only [ofDialect, List.mem_cons, List.not_mem_nil, or_false] at hb
  rcases hb with rfl | rfl | rfl | rfl | rfl
  · dsimp only at h
    split at h
    · exact Or.inl (List.mem_singleton.1 h)
    · exact Or.inr (by simp [Vocabulary.names, h])
  all_goals
    rw [List.mem_singleton.1 h]
    exact Or.inr (by simp [Vocabulary.names])

theorem within_of_mem_names (hb : b ∈ ofDialect d) {name : String} (h : name ∈ b.names) :
    Within isWordChar name.toList := by
  rcases eq_empty_or_mem_names hb h with rfl | h
  · exact within_nil
  · exact (Entry.isWord_of_isIdentifier (d.identifiers name h)).within

/-- The pattern of a built-in accepts a text exactly if the text declares the built-in again. -/
theorem exists_read?_iff (hb : b ∈ ofDialect d) {m : List Char} :
    (∃ s, b.pattern.read? m = some (s, [])) ↔ b.Declares m := by
  constructor
  · rintro ⟨s, h⟩
    obtain ⟨hread, hs⟩ := Pattern.read?_filter_iff.1 h
    rw [Bool.and_eq_true, List.contains_iff_mem, List.contains_iff_mem] at hs
    exact ⟨s.type, hs.1, s.name, hs.2, (Statement.reads_of_read? hread).2⟩
  · rintro ⟨type, htype, name, hname, hr⟩
    have hs : Statement.Proper ⟨type, name⟩ :=
      ⟨isWord_of_mem_types hb htype, within_of_mem_names hb hname⟩
    refine ⟨⟨type, name⟩, Pattern.read?_filter_iff.2 ⟨Statement.read?_of_reads hs hr, ?_⟩⟩
    rw [Bool.and_eq_true, List.contains_iff_mem, List.contains_iff_mem]
    exact ⟨htype, hname⟩

/-- The declarations that the preamble makes are declarations of built-ins. -/
theorem exists_declares_uniform {type name : String} (h : (type, name) ∈ d.builtins) :
    ∃ b ∈ ofDialect d, b.Declares (Preamble.uniform type name).toList := by
  have hreads : Reads [.text "uniform", .gap, .text type, .gap, .text name, .blanks, .text ";"]
      (Preamble.uniform type name).toList [] := by
    have hspelled : (Preamble.uniform type name).toList =
        "uniform".toList ++ ([' '] ++ (type.toList ++ ([' '] ++ (name.toList ++ ";".toList)))) := by
      simp only [Preamble.uniform, String.toList_append, List.append_assoc]
      rfl
    rw [hspelled]
    exact ⟨_, rfl, [' '], _, by simp, by decide, rfl, _, rfl, [' '], _, by simp, by decide, rfl,
      _, rfl, [], _, within_nil, rfl, reads_text_last ";"⟩
  simp only [Vocabulary.builtins, List.mem_cons, Prod.mk.injEq, List.not_mem_nil, or_false] at h
  have hdeclares : ∃ b ∈ ofDialect d, type ∈ b.types ∧ name ∈ b.names := by
    rcases h with ⟨rfl, rfl⟩ | ⟨rfl, rfl⟩ | ⟨rfl, rfl⟩ | ⟨rfl, rfl⟩ <;> simp [ofDialect]
  obtain ⟨b, hb, htype, hname⟩ := hdeclares
  exact ⟨b, hb, type, htype, name, hname, hreads⟩

end Builtin

/-! ## After hiding -/

section Hidden

variable {d : Dialect} {cs m : List Char}

/-- After hiding, no declaration of a built-in is found. -/
theorem free_hideBuiltins (d : Dialect) (cs : List Char) :
    (Statement.pattern.filter (isHidden d)).Free (hideBuiltins d cs) := by
  rw [Pattern.free_iff_values_eq_nil, hideBuiltins_eq,
    Statement.values_replace_comment (separate_isHidden d) (separate_isHidden d),
    List.filter_eq_nil_iff]
  intro s hs
  rw [Pattern.of_mem_values_filter hs]
  decide

/-- A text in which no declaration of a built-in is found has none as a part. -/
theorem not_declares_of_free (h : (Statement.pattern.filter (isHidden d)).Free cs) {b : Builtin}
    (hb : b ∈ Builtin.ofDialect d) (hm : m <:+: cs) : ¬ b.Declares m := by
  intro hdeclares
  obtain ⟨s, hread⟩ := (Builtin.exists_read?_iff hb).2 hdeclares
  obtain ⟨hread, hs⟩ := Pattern.read?_filter_iff.1 hread
  obtain ⟨x, k, rfl⟩ := hm
  have hhidden : isHidden d s = true := List.any_eq_true.2 ⟨b, hb, hs⟩
  rw [← List.append_nil m] at hread
  have hsome : (Statement.pattern.filter (isHidden d)).read? (m ++ k) = some (s, k) :=
    Pattern.read?_filter_iff.2 ⟨Statement.read?_append_of_read? hread k, hhidden⟩
  have hnone := h x (m ++ k) (List.append_assoc ..)
  rw [hsome] at hnone
  exact Option.some_ne_none _ hnone

/-- The passes may be made in any order. -/
theorem foldl_hide_of_perm {bs : List Builtin} (hperm : bs.Perm (Builtin.ofDialect d))
    (cs : List Char) : bs.foldl (fun cs b => b.hide cs) cs = hideBuiltins d cs := by
  have htests : (fun s => bs.any fun b => b.redeclares s) = isHidden d :=
    funext fun s => hperm.any_eq
  rw [foldl_hide_eq (fun b hb => hperm.mem_iff.1 hb), htests, hideBuiltins_eq]

end Hidden

/-- After the built-ins are hidden, no part of the text declares one of them again, and in particular
none of the declarations of the preamble stands in it; hiding them once more changes nothing, and the
five passes give the same text in every order. -/
theorem hideBuiltins_settles (d : Dialect) (cs : List Char) :
    (∀ b ∈ Builtin.ofDialect d, ∀ m, m <:+: hideBuiltins d cs → ¬ b.Declares m) ∧
      (∀ u ∈ d.builtins, ¬ (Preamble.uniform u.1 u.2).toList <:+: hideBuiltins d cs) ∧
      hideBuiltins d (hideBuiltins d cs) = hideBuiltins d cs ∧
      ∀ bs : List Builtin, bs.Perm (Builtin.ofDialect d) →
        bs.foldl (fun cs b => b.hide cs) cs = hideBuiltins d cs := by
  have hfree := free_hideBuiltins d cs
  refine ⟨fun b hb m hm => not_declares_of_free hfree hb hm, fun u hu hm => ?_, ?_,
    fun bs hperm => foldl_hide_of_perm hperm cs⟩
  · obtain ⟨b, hb, hdeclares⟩ := Builtin.exists_declares_uniform hu
    exact not_declares_of_free hfree hb hm hdeclares
  · rw [hideBuiltins_eq d (hideBuiltins d cs)]
    exact hfree.replace_eq _

/-- A dialect without aliases that calls the resolution `vec2`, and the time and the mouse `uniform`. -/
theorem hideBuiltins_settles_of_odd_names :
    ∃ d : Dialect, d.resolutionAliases = [] ∧ d.resolution = "vec2" ∧ d.time = d.mouse ∧
      (Builtin.ofDialect d).reverse.foldl (fun cs b => b.hide cs)
        "uniform vec2 ; uniform vec2 vec2; uniform float uniform\n; uniform vec2 uniform;".toList =
        "//  removed // vec2 removed // uniform removed // uniform removed".toList ∧
      ¬ "uniform vec2 vec2;".toList <:+: hideBuiltins d
        "uniform vec2 ; uniform vec2 vec2; uniform float uniform\n; uniform vec2 uniform;".toList := by
  let d : Dialect :=
    { Dialect.standard with
      resolutionAliases := [], resolution := "vec2", time := "uniform", mouse := "uniform"
      identifiers := by decide, resolution_not_alias := by decide }
  obtain ⟨-, hpreamble, -, horder⟩ := hideBuiltins_settles d
    "uniform vec2 ; uniform vec2 vec2; uniform float uniform\n; uniform vec2 uniform;".toList
  refine ⟨d, rfl, rfl, rfl, ?_, hpreamble ("vec2", "vec2") (by decide)⟩
  rw [horder _ (List.reverse_perm _)]
  decide +kernel

end ShaderPreview
