import ShaderPreview.Adapt.Stages
import ShaderPreview.Proofs.Pattern.Spares

/-!
# Removing declarations in one pass

Six passes over a shader remove declarations, five for the built-ins and one for the textures, and
each searches the text that the one before it left.  They are the same as one pass that removes all
of these declarations at once.

Two things could go wrong.  An earlier pass could take away part of a declaration that a later one
looks for; declarations do not overlap.  And a comment that an earlier pass leaves could be part of
one: it starts with a slash, which no declaration has, and behind its name stands `removed`, which
is no type that is looked for (`read?_comment_eq_none`).

* `segments_replace_comment`: what a search over commented text finds;
* `replace_replace_comment`: a pass over commented text is part of one pass;
* `values_replace_comment`: the statements that are still found;
* `removal`, `note`: all declarations that are removed, and what is left in their place;
* `hideBuiltins_eq`: the passes for the built-ins are one;
* `moveTextures_hideBuiltins`: all six are.
-/

namespace ShaderPreview

open Text

/-! ## Two passes -/

namespace Statement

/-- A test on statements whose types can neither end in `uniform` nor be the rest of a comment. -/
structure Separate (f : Statement → Bool) : Prop where
  not_suffix : ∀ s, f s = true → ¬ "uniform".toList <:+ s.type.toList
  not_removed : ∀ s, f s = true → s.type.toList.head? ≠ some 'r'

variable {f g : Statement → Bool} {s : Statement} {m rest cs u v k : List Char}

theorem Separate.of_types {ts : List String}
    (hts : ∀ t ∈ ts, ¬ "uniform".toList <:+ t.toList ∧ t.toList.head? ≠ some 'r')
    (hf : ∀ s, f s = true → s.type ∈ ts) : Separate f :=
  ⟨fun s hs => (hts _ (hf s hs)).1, fun s hs => (hts _ (hf s hs)).2⟩

theorem Separate.spares (hf : Separate f) {t : List Char} (ht : ∀ k, read? (t ++ k) = some (s, k))
    (htype : ¬ "uniform".toList <:+ s.type.toList) : (pattern.filter f).Spares t :=
  spares_filter hf.not_suffix ht htype

theorem Separate.or (hf : Separate f) (hg : Separate g) : Separate fun s => f s || g s where
  not_suffix := by
    intro s hs
    rcases Bool.or_eq_true_iff.1 hs with h | h
    · exact hf.not_suffix s h
    · exact hg.not_suffix s h
  not_removed := by
    intro s hs
    rcases Bool.or_eq_true_iff.1 hs with h | h
    · exact hf.not_removed s h
    · exact hg.not_removed s h

/-- An occurrence of a statement is one whatever stands behind it. -/
theorem read?_append_of_read? (h : read? (m ++ rest) = some (s, rest)) (k : List Char) :
    read? (m ++ k) = some (s, k) :=
  spelling.read?_append h k

/-- Statements have no slash. -/
theorem slash_not_mem (h : read? (m ++ rest) = some (s, rest)) : '/' ∉ m := by
  obtain ⟨b, hb, rfl⟩ := exists_body (read?_append_of_read? h)
  rw [List.mem_append, not_or]
  exact ⟨hb.not_mem (by decide), by decide⟩

theorem head?_comment (s : Statement) : (Builtin.comment s).head? = some '/' := by
  unfold Builtin.comment
  rfl

/-- Behind a name that ends in `uniform`, the comment for a hidden statement goes on with a type that
is not looked for. -/
theorem head?_type_of_read? {w : List Char} (hw : Within isWordChar w)
    (h : read? (w ++ (" removed".toList ++ k)) = some (s, rest)) :
    s.type.toList.head? = some 'r' := by
  obtain ⟨hs, _, hkey, b, mid, hb, hblank, rfl, tail, rfl, -⟩ := reads_of_read? h
  have hgap : Stops isWordChar (b ++ (s.type.toList ++ tail)) :=
    (stops_append_of_ne_nil hb).2 (hblank.stops fun _ => isWordChar_of_isBlank)
  obtain ⟨-, hrest⟩ := run_unique hkey hw (stops_cons.2 (by decide)) (by decide) hgap
  have htype : Stops isBlank (s.type.toList ++ tail) :=
    (stops_append_of_ne_nil hs.type_isWord.toList_ne_nil).2
      (hs.type_isWord.within.stops fun _ => isBlank_of_isWordChar)
  obtain ⟨-, htail⟩ := run_unique (a := [' ']) (b := "removed".toList ++ k) hrest (by decide)
    (stops_cons.2 (by decide)) hblank htype
  obtain ⟨c, t, hct⟩ := List.exists_cons_of_ne_nil hs.type_isWord.toList_ne_nil
  rw [hct, List.cons_append] at htail
  have hc : 'r' = c := (List.cons.inj htail).1
  rw [hct, List.head?_cons, hc]

/-- No statement that is looked for starts inside the comment for a hidden one. -/
theorem read?_comment_eq_none (hg : Separate g) (hs : s.Proper) (huv : Builtin.comment s = u ++ v)
    (hv : v ≠ []) (k : List Char) : (pattern.filter g).read? (v ++ k) = none := by
  rw [Option.eq_none_iff_forall_ne_some]
  rintro ⟨s', rest⟩ h
  obtain ⟨h, hok⟩ := Pattern.read?_filter_iff.1 h
  obtain ⟨c, v, rfl⟩ := List.exists_cons_of_ne_nil hv
  obtain ⟨_, hhead⟩ := (opens_of_read? h).exists_cons
  obtain ⟨rfl, -⟩ := List.cons.inj hhead
  unfold Builtin.comment at huv
  have hname {w : List Char} (hw : Within isWordChar w) (hv : 'u' :: v = w ++ " removed".toList) :
      False := by
    rw [hv, List.append_assoc] at h
    exact hg.not_removed s' hok (head?_type_of_read? hw h)
  -- the letter stands in the name, since there is none in front of it or behind it
  rcases List.append_eq_append_iff.1 huv with ⟨w, -, hv⟩ | ⟨w, hw, hv⟩
  · have hmem : 'u' ∈ " removed".toList := by rw [hv]; simp
    exact absurd hmem (by decide)
  · rcases List.append_eq_append_iff.1 hw with ⟨w', -, hsplit⟩ | ⟨w', hslashes, rfl⟩
    · have hword := hs.name_within
      rw [hsplit, within_append] at hword
      exact hname hword.2 hv
    · cases w' with
      | nil => exact hname hs.name_within hv
      | cons c w' =>
        obtain ⟨rfl, -⟩ := List.cons.inj hv
        have hmem : 'u' ∈ "// ".toList := by rw [hslashes]; simp
        exact absurd hmem (by decide)

end Statement

/-! ## A pass over commented text -/

/-- What is found passes the test. -/
theorem Pattern.of_mem_values_filter {α : Type} {p : Pattern α} {ok : α → Bool} {cs : List Char} {a : α}
    (h : a ∈ (p.filter ok).values cs) : ok a = true := by
  induction cs using occurrence_induction (p.filter ok) with
  | nil => simp at h
  | found m b rest _ hread ih =>
    rw [values_of_read? hread, List.mem_cons] at h
    rcases h with rfl | h
    · exact (read?_filter_iff.1 hread).2
    · exact ih h
  | plain c cs hread ih =>
    rw [values_of_read?_eq_none hread] at h
    exact ih h

/-- What replacing keeps in front of the first replacement stood there before. -/
theorem Pattern.prefix_of_prefix_replace {α : Type} {p : Pattern α} {put : α → List Char} {c : Char}
    (hput : ∀ a, (put a).head? = some c) {m cs : List Char} (hm : c ∉ m)
    (h : m <+: p.replace put cs) : m <+: cs := by
  induction cs using occurrence_induction p generalizing m with
  | nil =>
    rw [replace_nil] at h
    exact h
  | found t a rest ht hread ih =>
    rw [replace_of_read? put hread] at h
    cases m with
    | nil => exact List.nil_prefix
    | cons d m =>
      obtain ⟨w, hw⟩ := List.head?_eq_some_iff.1 (hput a)
      rw [hw, List.cons_append, List.cons_prefix_cons] at h
      exact absurd (h.1 ▸ List.mem_cons_self ..) hm
  | plain d cs hread ih =>
    rw [replace_of_read?_eq_none put hread] at h
    cases m with
    | nil => exact List.nil_prefix
    | cons e m =>
      rw [List.cons_prefix_cons] at h ⊢
      rw [List.mem_cons, not_or] at hm
      exact ⟨h.1, ih hm.2 h.2⟩

namespace Statement

variable {f g h : Statement → Bool}

/-- Where no statement starts, none starts after others gave way to comments: a statement has no slash,
so it would end in front of them. -/
theorem read?_append_replace_eq_none {α : Type} {p : Pattern α} {put : α → List Char}
    (hput : ∀ a, (put a).head? = some '/') {v cs : List Char}
    (h : (pattern.filter f).read? (v ++ cs) = none) :
    (pattern.filter f).read? (v ++ p.replace put cs) = none := by
  rw [Option.eq_none_iff_forall_ne_some] at h ⊢
  rintro ⟨s, rest⟩ hcommented
  obtain ⟨hread, hs⟩ := Pattern.read?_filter_iff.1 hcommented
  obtain ⟨m, -, heq⟩ := Pattern.exists_append_of_read? hread
  rw [heq] at hread
  have hread' := read?_append_of_read? hread
  rcases List.append_eq_append_iff.1 heq with ⟨w, rfl, hw⟩ | ⟨w, rfl, -⟩
  · have hslash := slash_not_mem hread
    rw [List.mem_append, not_or] at hslash
    obtain ⟨k, rfl⟩ := Pattern.prefix_of_prefix_replace hput hslash.2 ⟨rest, hw.symm⟩
    refine h (s, k) (Pattern.read?_filter_iff.2 ⟨?_, hs⟩)
    rw [← List.append_assoc]
    exact hread' k
  · refine h (s, w ++ cs) (Pattern.read?_filter_iff.2 ⟨?_, hs⟩)
    rw [List.append_assoc]
    exact hread' _

/-- What is left of a piece when statements give way to comments: of a statement that does, the
characters of its comment. -/
def commented (f : Statement → Bool) : Piece Statement → List (Piece Statement)
  | .plain c => [.plain c]
  | .found t s => if f s then (Builtin.comment s).map .plain else [.found t s]

/-- Searching a text in which statements gave way to comments finds the others. -/
theorem segments_replace_comment (hf : Separate f) (hg : Separate g) (cs : List Char) :
    (pattern.filter g).segments ((pattern.filter f).replace Builtin.comment cs) =
      ((pattern.filter fun s => f s || g s).segments cs).flatMap (commented f) := by
  induction cs using Pattern.occurrence_induction (pattern.filter fun s => f s || g s) with
  | nil => simp only [Pattern.replace_nil, Pattern.segments_nil, List.flatMap_nil]
  | found m s rest hm h ih =>
    obtain ⟨hread, hok⟩ := Pattern.read?_filter_iff.1 h
    have hread' := read?_append_of_read? hread
    rw [Pattern.segments_append h, List.flatMap_cons, ← ih, commented]
    cases hfs : f s with
    | true =>
      have hp := Pattern.read?_filter_iff.2 ⟨hread, hfs⟩
      rw [Pattern.replace_of_read? _ hp, if_pos rfl, Pattern.segments_append_of_none]
      exact fun u v huv hv => read?_comment_eq_none hg (reads_of_read? hread).1 huv hv _
    | false =>
      rw [hfs, Bool.false_or] at hok
      have hnone := (hf.spares hread' (hg.not_suffix s hok)).read?_eq_none
        (read?_filter_eq_none hread' hfs) rest
      have hq : (pattern.filter g).read? (m ++ (pattern.filter f).replace Builtin.comment rest) =
          some (s, (pattern.filter f).replace Builtin.comment rest) :=
        Pattern.read?_filter_iff.2 ⟨hread' _, hok⟩
      rw [Pattern.replace_append_of_none hnone, Pattern.segments_append hq]
      rfl
  | plain c cs h ih =>
    have hp : (pattern.filter f).read? (c :: cs) = none :=
      Pattern.read?_filter_eq_none_of_imp h fun s hs => by rw [hs, Bool.true_or]
    have hg' : (pattern.filter g).read? (c :: cs) = none :=
      Pattern.read?_filter_eq_none_of_imp h fun s hs => by rw [hs, Bool.or_true]
    have hq : (pattern.filter g).read? (c :: (pattern.filter f).replace Builtin.comment cs) = none :=
      read?_append_replace_eq_none head?_comment (v := [c]) hg'
    rw [Pattern.replace_of_read?_eq_none _ hp, Pattern.segments_of_read?_eq_none hq,
      Pattern.segments_of_read?_eq_none h, ih, List.flatMap_cons, commented, List.singleton_append]

theorem flatMap_render_commented (put : Statement → List Char) (q : Piece Statement) :
    (commented f q).flatMap (Piece.render put) =
      q.render fun s => if f s then Builtin.comment s else put s := by
  cases q with
  | plain c => rfl
  | found t s =>
    rw [commented, Piece.render_found]
    split
    · exact Piece.flatMap_render_plain _ _
    · rw [List.flatMap_singleton, Piece.render_found]

/-- Replacing statements in a text in which others gave way to comments is one pass over the text. -/
theorem replace_replace_comment (hf : Separate f) (hg : Separate g) (put : Statement → List Char)
    (cs : List Char) :
    (pattern.filter g).replace put ((pattern.filter f).replace Builtin.comment cs) =
      (pattern.filter fun s => f s || g s).replace
        (fun s => if f s then Builtin.comment s else put s) cs := by
  rw [Pattern.replace, segments_replace_comment hf hg, List.flatMap_assoc, Pattern.replace]
  simp only [flatMap_render_commented]

theorem filterMap_value?_commented (ps : List (Piece Statement)) :
    (ps.flatMap (commented f)).filterMap Piece.value? =
      (ps.filterMap Piece.value?).filter fun s => !f s := by
  induction ps with
  | nil => rfl
  | cons q ps ih =>
    rw [List.flatMap_cons, List.filterMap_append, ih]
    cases q with
    | plain c => rfl
    | found t s =>
      cases hfs : f s with
      | true => simp [commented, Piece.value?, hfs]
      | false => simp [commented, Piece.value?, hfs]

/-- Statements do not overlap, so looking for fewer of them finds the same ones, less those that are
not looked for. -/
theorem filter_values (hh : Separate h) (hg : ∀ s, g s = true → h s = true) (cs : List Char) :
    ((pattern.filter h).values cs).filter g = (pattern.filter g).values cs := by
  induction cs using Pattern.occurrence_induction (pattern.filter h) with
  | nil => simp only [Pattern.values_nil, List.filter_nil]
  | found m s rest hm hread ih =>
    obtain ⟨hread', hs⟩ := Pattern.read?_filter_iff.1 hread
    rw [Pattern.values_of_read? hread, List.filter_cons, ih]
    cases hgs : g s with
    | true => rw [if_pos rfl, Pattern.values_of_read? (Pattern.read?_filter_iff.2 ⟨hread', hgs⟩)]
    | false =>
      have hgsep : Separate g := ⟨fun s hs => hh.not_suffix s (hg s hs),
        fun s hs => hh.not_removed s (hg s hs)⟩
      have ht := read?_append_of_read? hread'
      have hnone := (hgsep.spares ht (hh.not_suffix s hs)).read?_eq_none
        (read?_filter_eq_none ht hgs) rest
      rw [if_neg Bool.false_ne_true, Pattern.values, Pattern.values,
        Pattern.segments_append_of_none hnone, List.filterMap_append]
      simp [Piece.value?]
  | plain c cs hread ih =>
    rw [Pattern.values_of_read?_eq_none hread, ih,
      Pattern.values_of_read?_eq_none (Pattern.read?_filter_eq_none_of_imp hread hg)]

/-- Statements that gave way to comments are no longer found, and all others still are. -/
theorem values_replace_comment (hf : Separate f) (hg : Separate g) (cs : List Char) :
    (pattern.filter g).values ((pattern.filter f).replace Builtin.comment cs) =
      ((pattern.filter g).values cs).filter fun s => !f s := by
  have himp (s : Statement) (hs : g s = true) : (f s || g s) = true := by rw [hs, Bool.or_true]
  have hboth := filter_values (hf.or hg) himp cs
  rw [Pattern.values, segments_replace_comment hf hg, filterMap_value?_commented, ← Pattern.values,
    ← hboth, List.filter_filter]
  refine List.filter_congr fun s hs => ?_
  have hs := Pattern.of_mem_values_filter hs
  cases hfs : f s with
  | true => rfl
  | false =>
    rw [hfs, Bool.false_or] at hs
    rw [hs]
    rfl

end Statement

/-! ## The six passes -/

/-- The types at which built-ins are hidden; a dialect has its own names, but not its own types. -/
def Builtin.hiddenTypes : List String :=
  (ofDialect .standard).flatMap types

/-- Whether a statement declares the built-in again. -/
def Builtin.redeclares (b : Builtin) (s : Statement) : Bool :=
  b.types.contains s.type && b.names.contains s.name

/-- Whether a statement declares some built-in again. -/
def isHidden (d : Dialect) (s : Statement) : Bool :=
  (Builtin.ofDialect d).any fun b => b.redeclares s

/-- Whether a statement declares a texture. -/
def isTexture (s : Statement) : Bool :=
  Texture.types.contains s.type && s.name != ""

theorem isHidden_eq_false_iff {d : Dialect} {s : Statement} : isHidden d s = false ↔
    ∀ b ∈ Builtin.ofDialect d, s.type ∈ b.types → s.name ∉ b.names := by
  simp [isHidden, Builtin.redeclares]

theorem isTexture_iff {s : Statement} :
    isTexture s = true ↔ s.type ∈ Texture.types ∧ s.name ≠ "" := by
  rw [isTexture, Bool.and_eq_true, List.contains_iff_mem, bne_iff_ne]

/-- The declarations that are removed. -/
def removal (d : Dialect) : Pattern Statement :=
  Statement.pattern.filter fun s => isHidden d s || isTexture s

/-- The comment that stands for a removed declaration. -/
def note (d : Dialect) (s : Statement) : List Char :=
  if isHidden d s then Builtin.comment s else Texture.comment d s

/-- Without an occurrence that passes, nothing is replaced. -/
theorem Pattern.replace_filter_false {α : Type} (p : Pattern α) (put : α → List Char)
    (cs : List Char) : (p.filter fun _ => false).replace put cs = cs := by
  induction cs with
  | nil => exact replace_nil _ _
  | cons c cs ih =>
    have hnone : (p.filter fun _ => false).read? (c :: cs) = none := by
      rw [Option.eq_none_iff_forall_ne_some]
      rintro ⟨a, rest⟩ hread
      exact Bool.noConfusion (read?_filter_iff.1 hread).2
    rw [replace_of_read?_eq_none _ hnone, ih]

theorem Builtin.mem_hiddenTypes {d : Dialect} {b : Builtin} (hb : b ∈ ofDialect d) {type : String}
    (h : type ∈ b.types) : type ∈ hiddenTypes := by
  have htypes : (ofDialect d).flatMap types = hiddenTypes := rfl
  rw [← htypes]
  exact List.mem_flatMap.2 ⟨b, hb, h⟩

theorem separate_redeclares {d : Dialect} {bs : List Builtin}
    (hbs : ∀ b ∈ bs, b ∈ Builtin.ofDialect d) :
    Statement.Separate fun s => bs.any fun b => b.redeclares s := by
  have hts : ∀ t ∈ Builtin.hiddenTypes,
      ¬ "uniform".toList <:+ t.toList ∧ t.toList.head? ≠ some 'r' := by decide
  refine .of_types hts fun s hs => ?_
  obtain ⟨b, hb, hs⟩ := List.any_eq_true.1 hs
  rw [Builtin.redeclares, Bool.and_eq_true, List.contains_iff_mem] at hs
  exact Builtin.mem_hiddenTypes (hbs b hb) hs.1

theorem separate_isHidden (d : Dialect) : Statement.Separate (isHidden d) :=
  separate_redeclares fun _ hb => hb

theorem separate_isTexture : Statement.Separate isTexture := by
  have hts : ∀ t ∈ Texture.types, ¬ "uniform".toList <:+ t.toList ∧ t.toList.head? ≠ some 'r' := by
    decide
  exact .of_types hts fun s hs => (isTexture_iff.1 hs).1

/-- Hiding several built-ins is one pass. -/
theorem foldl_hide_eq {d : Dialect} {bs : List Builtin} (hbs : ∀ b ∈ bs, b ∈ Builtin.ofDialect d)
    (cs : List Char) :
    bs.foldl (fun cs b => b.hide cs) cs =
      (Statement.pattern.filter fun s => bs.any fun b => b.redeclares s).replace
        Builtin.comment cs := by
  induction bs generalizing cs with
  | nil => exact (Pattern.replace_filter_false _ _ cs).symm
  | cons b bs ih =>
    have hbs' : ∀ b' ∈ bs, b' ∈ Builtin.ofDialect d := fun b' hb' => hbs b' (List.mem_cons_of_mem _ hb')
    have hb : Statement.Separate b.redeclares := by
      have hone : Statement.Separate fun s => [b].any fun b => b.redeclares s :=
        separate_redeclares (by simpa using hbs b)
      simpa only [List.any_cons, List.any_nil, Bool.or_false] using hone
    have hfuse := Statement.replace_replace_comment hb (separate_redeclares hbs') Builtin.comment cs
    simp only [ite_self] at hfuse
    rw [List.foldl_cons, ih hbs']
    exact hfuse

theorem hideBuiltins_eq (d : Dialect) (cs : List Char) :
    hideBuiltins d cs = (Statement.pattern.filter (isHidden d)).replace Builtin.comment cs :=
  foldl_hide_eq (fun _ hb => hb) cs

/-- The six passes that remove declarations are one. -/
theorem moveTextures_hideBuiltins (d : Dialect) (cs : List Char) :
    moveTextures d (hideBuiltins d cs) = (removal d).replace (note d) cs := by
  rw [hideBuiltins_eq]
  exact Statement.replace_replace_comment (separate_isHidden d) separate_isTexture
    (Texture.comment d) cs

section Removal

variable {d : Dialect} {s : Statement} {m rest : List Char}

theorem separate_removal (d : Dialect) :
    Statement.Separate fun s => isHidden d s || isTexture s :=
  (separate_isHidden d).or separate_isTexture

theorem removal_proper (h : (removal d).read? m = some (s, rest)) : s.Proper :=
  (Statement.reads_of_read? (Pattern.read?_filter_iff.1 h).1).1

theorem removal_slash_not_mem (h : (removal d).read? (m ++ rest) = some (s, rest)) : '/' ∉ m :=
  Statement.slash_not_mem (Pattern.read?_filter_iff.1 h).1

/-- Declarations that are removed do not overlap. -/
theorem removal_spares (h : (removal d).read? (m ++ rest) = some (s, rest)) : (removal d).Spares m := by
  obtain ⟨hread, hok⟩ := Pattern.read?_filter_iff.1 h
  exact (separate_removal d).spares (Statement.read?_append_of_read? hread)
    ((separate_removal d).not_suffix s hok)

end Removal
end ShaderPreview
