import ShaderPreview.Proofs.LineFidelity
import ShaderPreview.Proofs.Removal
import ShaderPreview.Uniform.Basic

/-!
# Reported uniforms are declared

The uniforms that are reported to the user are found line by line, while the shader is adapted as a
whole.  The two have to agree: a control for a uniform that the program does not declare would set
nothing.

A uniform is reported because of a statement on some line, the first one there with a known type:
`Uniform.WrittenAs`.  A texture is declared by the preamble, with its sampling function:
`Program.Offers`.  Any other statement has to reach the program as it stands, and it does because
none of the adapted constructs overlaps it, except the mouse, which is reported although the
preamble declares it.

* `Pattern.exists_isFirst`: the value that is found first has a text;
* `Uniform.exists_writtenAs`: every reported uniform has a statement;
* `infix_hideBuiltins`, `infix_userText`: statements that are kept;
* `Uniform.declared_of_mem_ofSource`: the agreement.
-/

namespace ShaderPreview

open Text

/-! ## Statements behind reported uniforms -/

/-- The text `t` is the first occurrence of the pattern in `cs`, and its value is `a`. -/
def Pattern.IsFirst {α : Type} (p : Pattern α) (cs t : List Char) (a : α) : Prop :=
  ∃ x k, cs = x ++ (t ++ k) ∧ p.read? (t ++ k) = some (a, k) ∧
    ∀ i, i < x.length → p.read? (cs.drop i) = none

/-- The value that is found first has a text. -/
theorem Pattern.exists_isFirst {α : Type} {p : Pattern α} {cs : List Char} {a : α}
    (h : p.first? cs = some a) : ∃ t, p.IsFirst cs t a := by
  induction cs with
  | nil => simp [first?] at h
  | cons c cs ih =>
    rw [first?] at h
    split at h
    · next b rest hread =>
      obtain rfl := Option.some.inj h
      obtain ⟨m, -, heq⟩ := exists_append_of_read? hread
      rw [heq] at hread ⊢
      exact ⟨m, [], rest, rfl, hread, fun i hi => absurd hi (Nat.not_lt_zero i)⟩
    · next hread =>
      obtain ⟨t, x, k, heq, hk, hnone⟩ := ih h
      refine ⟨t, c :: x, k, by rw [heq, List.cons_append], hk, fun i hi => ?_⟩
      cases i with
      | zero => exact hread
      | succ i => exact hnone i (Nat.lt_of_succ_lt_succ hi)

namespace Uniform

/-- The text `t` is the statement that declares the uniform on some line of the shader. -/
def WrittenAs (source : String) (u : Uniform) (t : List Char) : Prop :=
  ∃ l ∈ lines source.toList, ofLine? l = some u ∧ pattern.IsFirst (trim l) t ⟨u.type, u.name⟩

variable {d : Dialect} {source : String} {u : Uniform} {t : List Char}

theorem first?_of_ofLine? {l : List Char} (h : ofLine? l = some u) :
    pattern.first? (trim l) = some ⟨u.type, u.name⟩ := by
  simp only [ofLine?] at h
  split at h
  · simp at h
  · obtain ⟨s, hs, rfl⟩ := Option.map_eq_some_iff.1 h
    exact hs

/-- What is reported was declared on a line, under a name that is not reserved. -/
theorem mem_of_declared_mem_sift {reserved : List String} {us : List Uniform} {seen : List String}
    (h : .declared u ∈ Finding.sift reserved seen us) : u ∈ us ∧ u.name ∉ reserved := by
  induction us generalizing seen with
  | nil => simp [Finding.sift] at h
  | cons u' us ih =>
    rw [Finding.sift] at h
    split at h
    · obtain ⟨hmem, hname⟩ := ih ((List.mem_cons.1 h).resolve_left (by simp))
      exact ⟨List.mem_cons_of_mem _ hmem, hname⟩
    · next hnew =>
      rcases List.mem_cons.1 h with heq | h
      · obtain rfl := Finding.declared.inj heq
        exact ⟨List.mem_cons_self .., fun hmem => hnew (Or.inl hmem)⟩
      · obtain ⟨hmem, hname⟩ := ih h
        exact ⟨List.mem_cons_of_mem _ hmem, hname⟩

theorem exists_line_of_mem_ofSource (h : u ∈ ofSource d source) :
    (∃ l ∈ lines source.toList, ofLine? l = some u) ∧ u.name ∉ d.reserved := by
  obtain ⟨f, hf, hu⟩ := List.mem_filterMap.1 h
  cases f with
  | skipped name => simp [Finding.uniform?] at hu
  | declared u' =>
    obtain rfl := Option.some.inj hu
    obtain ⟨hmem, hname⟩ := mem_of_declared_mem_sift hf
    exact ⟨List.mem_filterMap.1 hmem, hname⟩

/-- Every reported uniform has a statement. -/
theorem exists_writtenAs (h : u ∈ ofSource d source) : ∃ t, u.WrittenAs source t := by
  obtain ⟨⟨l, hl, hu⟩, -⟩ := exists_line_of_mem_ofSource h
  obtain ⟨t, ht⟩ := Pattern.exists_isFirst (first?_of_ofLine? hu)
  exact ⟨t, l, hl, hu, ht⟩

/-- The statement of a uniform is read alike wherever it stands. -/
theorem WrittenAs.read? (h : u.WrittenAs source t) (k : List Char) :
    pattern.read? (t ++ k) = some (⟨u.type, u.name⟩, k) := by
  obtain ⟨l, -, -, x, k', -, hread, -⟩ := h
  obtain ⟨m, heq, hm⟩ := (Statement.spelling.filter _).exists_of_read? hread
  rw [List.append_left_inj] at heq
  rw [heq]
  exact hm k

theorem WrittenAs.infix_source (h : u.WrittenAs source t) : t <:+: source.toList := by
  obtain ⟨l, hl, -, x, k, heq, -⟩ := h
  have htrim : t <:+: trim l := ⟨x, k, by rw [heq, List.append_assoc]⟩
  exact htrim.trans ((trim_isInfix l).trans (infix_of_mem_lines hl))

end Uniform

/-! ## Statements that are kept -/

section Kept

variable {d : Dialect} {s : Statement} {t cs : List Char}

/-- A statement that declares no built-in again is kept when they are hidden. -/
theorem infix_hideBuiltins (ht : ∀ k, Statement.read? (t ++ k) = some (s, k))
    (htype : ¬ "uniform".toList <:+ s.type.toList) (hhidden : isHidden d s = false)
    (h : t <:+: cs) : t <:+: hideBuiltins d cs := by
  rw [hideBuiltins_eq]
  exact ((separate_isHidden d).spares ht htype).infix_replace
    (Statement.read?_filter_eq_none ht hhidden) h

/-- A statement that declares neither a built-in nor a texture is kept by all stages. -/
theorem infix_userText (ht : ∀ k, Statement.read? (t ++ k) = some (s, k))
    (htype : ¬ "uniform".toList <:+ s.type.toList) (hhidden : isHidden d s = false)
    (htexture : isTexture s = false) (h : t <:+: cs) : t <:+: userText d cs := by
  have hne : t ≠ [] := by
    obtain ⟨b, -, rfl⟩ := Statement.exists_body ht
    simp
  have hapart {α : Type} {p : Pattern α} (hp : p.Apart) (k : List Char) : p.read? (t ++ k) = none :=
    hp.read?_eq_none ht (u := []) rfl hne k
  have hentry : (Entry.pattern d.entryPoint).Apart := Entry.apart d.isWord_entryPoint
  have h₁ := infix_hideBuiltins ht htype hhidden h
  have h₂ : t <:+: moveTextures d (hideBuiltins d cs) :=
    (separate_isTexture.spares ht htype).infix_replace
      (Statement.read?_filter_eq_none ht htexture) h₁
  have h₃ : t <:+: flattenCalls _ :=
    (EvalCall.apart.spares ht).infix_replace (hapart EvalCall.apart) h₂
  have h₄ : t <:+: dropColorLayouts _ :=
    (ColorLayout.apart.spares ht).infix_replace (hapart ColorLayout.apart) h₃
  have h₅ : t <:+: countInWholeNumbers _ :=
    (FloatLoop.apart.spares ht).infix_replace (hapart FloatLoop.apart) h₄
  exact (hentry.spares ht).infix_replaceFirst (hapart hentry) h₅

end Kept

/-! ## Textures -/

/-- The program offers a texture: it is listed, and the text declares it and its sampling function on
lines of their own. -/
structure Program.Offers (p : Program) (d : Dialect) (name : String) : Prop where
  listed : name ∈ p.textures
  declared : ∃ (above : List String) (below : String),
    p.text = unlines above ++ ("uniform sampler2D " ++ name ++ ";\n") ++ below
  sampled : ∃ (above : List String) (below : String),
    p.text = unlines above ++ unlines (Preamble.sampling d name) ++ below

section Textures

variable {d : Dialect} {name : String} {textures : List String}

theorem Preamble.textureLines_isInfix (d : Dialect) (textures : List String) :
    textureLines d textures <:+: Preamble.lines d textures :=
  ⟨_, [""], rfl⟩

/-- The preamble has a line that declares the texture. -/
theorem Preamble.declaration_isInfix (h : name ∈ textures) :
    [Preamble.uniform "sampler2D" name] <:+: Preamble.lines d textures := by
  refine List.IsInfix.trans ?_ (textureLines_isInfix d textures)
  obtain ⟨ls, ls', hls⟩ := List.append_of_mem (List.mem_map_of_mem (f := uniform "sampler2D") h)
  rw [textureLines, if_neg (by simpa using List.ne_nil_of_mem h), hls]
  exact ⟨"" :: ls, _, by simp only [List.cons_append, List.append_assoc, List.nil_append]; rfl⟩

/-- The preamble has the lines of the texture's sampling function. -/
theorem Preamble.sampling_isInfix (h : name ∈ textures) :
    Preamble.sampling d name <:+: Preamble.lines d textures := by
  refine List.IsInfix.trans ?_ (textureLines_isInfix d textures)
  have hmem : "" :: sampling d name ∈ textures.map fun name => "" :: sampling d name :=
    List.mem_map_of_mem h
  rw [textureLines, if_neg (by simpa using List.ne_nil_of_mem h), List.flatMap_def]
  exact List.infix_append_of_infix_right
    ((List.infix_cons List.infix_rfl).trans (List.infix_of_mem_flatten hmem))

/-- Lines of the preamble stand on lines of their own in the program. -/
theorem Program.exists_text_of_isInfix {source : String} {ls : List String}
    (h : ls <:+: Preamble.lines d (Program.ofSource d source).textures) :
    ∃ (above : List String) (below : String),
      (Program.ofSource d source).text = unlines above ++ unlines ls ++ below := by
  obtain ⟨above, rest, heq⟩ := h
  have htext : (Program.ofSource d source).text =
      unlines (above ++ ls ++ rest) ++ String.ofList (userText d source.toList) ++ "\n" ++
        driver d (mentionsMask d source) := by
    rw [heq]
    rfl
  rw [htext, unlines_append, unlines_append]
  exact ⟨above, _, by simp only [String.append_assoc]; rfl⟩

/-- The textures of a program are on offer. -/
theorem Program.offers_of_mem {source : String} (h : name ∈ (Program.ofSource d source).textures) :
    (Program.ofSource d source).Offers d name := by
  refine ⟨h, ?_, Program.exists_text_of_isInfix (Preamble.sampling_isInfix h)⟩
  obtain ⟨above, below, htext⟩ := Program.exists_text_of_isInfix (Preamble.declaration_isInfix h)
  refine ⟨above, below, ?_⟩
  have hhead : "uniform " ++ "sampler2D" ++ " " = "uniform sampler2D " := by decide
  have htail : ";" ++ "\n" = ";\n" := by decide
  rw [htext, unlines_cons, unlines_nil, String.append_empty, Preamble.uniform, hhead, ← htail]
  simp only [String.append_assoc]

end Textures

/-! ## The agreement -/

namespace Uniform

variable {d : Dialect} {source : String} {u : Uniform} {t : List Char}

theorem kind_eq_image_iff : u.kind = .image ↔ u.type ∈ Texture.types := by
  have hofType : ControlKind.ofType u.type ≠ .image := by
    unfold ControlKind.ofType
    split <;> simp
  have htypes : u.type ∈ Texture.types ↔ u.type = "shader" ∨ u.type = "sampler2D" := by
    simp [Texture.types]
  rw [htypes, kind, ControlKind.ofDeclared]
  split
  · next h => simp [h]
  · next h => split <;> simp [h, hofType]

/-- A reported uniform is a statement with a known type and a name. -/
theorem WrittenAs.type_mem (h : u.WrittenAs source t) : u.type ∈ types ∧ u.name ≠ "" := by
  obtain ⟨-, hok⟩ := Pattern.read?_filter_iff.1 (h.read? [])
  rw [Bool.and_eq_true, List.contains_iff_mem, bne_iff_ne] at hok
  exact hok

theorem WrittenAs.read?_statement (h : u.WrittenAs source t) (k : List Char) :
    Statement.read? (t ++ k) = some (⟨u.type, u.name⟩, k) :=
  (Pattern.read?_filter_iff.1 (h.read? k)).1

/-- Known types are no words that end in `uniform`. -/
theorem WrittenAs.not_suffix_type (h : u.WrittenAs source t) :
    ¬ "uniform".toList <:+ u.type.toList := by
  have hall : ∀ type ∈ types, ¬ "uniform".toList <:+ type.toList := by decide
  exact hall _ h.type_mem.1

/-- A uniform that is not reserved declares no built-in again, except for the mouse. -/
theorem isHidden_eq_false (hname : u.name ≠ "") (hreserved : u.name ∉ d.reserved)
    (hmouse : u.name = d.mouse → u.type ∈ Texture.types) :
    isHidden d ⟨u.type, u.name⟩ = false := by
  rw [isHidden_eq_false_iff]
  intro b hb htype
  simp only [Vocabulary.reserved, List.cons_append, List.mem_cons, List.mem_append,
    List.not_mem_nil, or_false, not_or] at hreserved
  obtain ⟨hresolution, haliases, htime, hmask⟩ := hreserved
  simp only [Builtin.ofDialect, List.mem_cons, List.not_mem_nil, or_false] at hb
  rcases hb with rfl | rfl | rfl | rfl | rfl
  · show u.name ∉ (if d.resolutionAliases.isEmpty then [""] else d.resolutionAliases)
    split
    · simpa using hname
    · exact haliases
  · simpa using hresolution
  · simpa using htime
  · have hdisjoint : ∀ type ∈ ["vec2", "float2", "vec4", "float4"], type ∉ Texture.types := by
      decide
    intro hmem
    exact hdisjoint _ htype (hmouse (List.mem_singleton.1 hmem))
  · simpa using hmask

/-- A reported texture is one of the program's textures. -/
theorem mem_textures (h : u ∈ ofSource d source) (himage : u.type ∈ Texture.types) :
    u.name ∈ (Program.ofSource d source).textures := by
  obtain ⟨t, ht⟩ := exists_writtenAs h
  obtain ⟨-, hreserved⟩ := exists_line_of_mem_ofSource h
  have hname := ht.type_mem.2
  have hkept : t <:+: hideBuiltins d source.toList :=
    infix_hideBuiltins ht.read?_statement ht.not_suffix_type
      (isHidden_eq_false hname hreserved fun _ => himage) ht.infix_source
  have hread (k : List Char) : (Statement.pattern.filter isTexture).read? (t ++ k) =
      some (⟨u.type, u.name⟩, k) :=
    Pattern.read?_filter_iff.2 ⟨ht.read?_statement k, isTexture_iff.2 ⟨himage, hname⟩⟩
  have hvalue : ⟨u.type, u.name⟩ ∈ Texture.pattern.values (hideBuiltins d source.toList) :=
    (separate_isTexture.spares ht.read?_statement ht.not_suffix_type).mem_values hread hkept
  have hmask : u.name ≠ d.mask := by
    rintro heq
    exact hreserved (by simp [Vocabulary.reserved, heq])
  show u.name ∈ textureNames d (hideBuiltins d source.toList)
  rw [textureNames, List.mem_eraseDups, List.mem_filter, bne_iff_ne]
  exact ⟨List.mem_map.2 ⟨_, hvalue, rfl⟩, hmask⟩

/-- Every reported uniform is declared in the program.  A texture is declared by the preamble; the
statement of any other uniform, except the mouse, stands in the adapted text as it does in the
shader. -/
theorem declared_of_mem_ofSource (d : Dialect) (source : String) (u : Uniform)
    (h : u ∈ ofSource d source) :
    (∃ t, u.WrittenAs source t) ∧
      (u.kind = .image → (Program.ofSource d source).Offers d u.name) ∧
      (u.kind ≠ .image → u.name ≠ d.mouse → ∀ t, u.WrittenAs source t →
        t <:+: source.toList ∧ t <:+: userText d source.toList ∧
          t <:+: (Program.ofSource d source).text.toList) := by
  refine ⟨exists_writtenAs h, fun himage => ?_, fun hkind hmouse t ht => ?_⟩
  · exact Program.offers_of_mem (mem_textures h (kind_eq_image_iff.1 himage))
  · obtain ⟨-, hreserved⟩ := exists_line_of_mem_ofSource h
    have htexture : isTexture ⟨u.type, u.name⟩ = false :=
      Bool.eq_false_iff.2 fun htexture => hkind (kind_eq_image_iff.2 (isTexture_iff.1 htexture).1)
    have hkept : t <:+: userText d source.toList :=
      infix_userText ht.read?_statement ht.not_suffix_type
        (isHidden_eq_false ht.type_mem.2 hreserved fun heq => absurd heq hmouse) htexture
        ht.infix_source
    refine ⟨ht.infix_source, hkept, ?_⟩
    rw [Program.toList_text]
    exact List.infix_append_of_infix_right (List.infix_append_of_infix_left hkept)

/-- A texture and an annotated colour on the line below it. -/
theorem declared_photo_and_tint :
    (Program.ofSource .standard "uniform shader photo;\nlayout(color) uniform half4 tint;").Offers
        .standard "photo" ∧
      "uniform half4 tint;".toList <:+:
        userText .standard "uniform shader photo;\nlayout(color) uniform half4 tint;".toList := by
  have hphoto : (⟨"photo", "shader", false⟩ : Uniform) ∈
      ofSource .standard "uniform shader photo;\nlayout(color) uniform half4 tint;" := by
    decide +kernel
  have htint : (⟨"tint", "half4", true⟩ : Uniform) ∈
      ofSource .standard "uniform shader photo;\nlayout(color) uniform half4 tint;" := by
    decide +kernel
  have hwritten : WrittenAs "uniform shader photo;\nlayout(color) uniform half4 tint;"
      ⟨"tint", "half4", true⟩ "uniform half4 tint;".toList :=
    ⟨"layout(color) uniform half4 tint;".toList, by decide +kernel, by decide +kernel,
      "layout(color) ".toList, [], by decide +kernel, by decide +kernel, by decide +kernel⟩
  have hdeclared := declared_of_mem_ofSource _ _ _ htint
  exact ⟨(declared_of_mem_ofSource _ _ _ hphoto).2.1 (by decide),
    (hdeclared.2.2 (by decide) (by decide) _ hwritten).2.1⟩

end Uniform
end ShaderPreview
