import Mathlib.Data.List.Nodup
import ShaderPreview.Proofs.Textures

/-!
# The names that the preamble declares

A program that declares a name twice is not compiled.  The preamble declares the built-in uniforms,
the textures, and a sampling function for each texture.  Only the mask is kept from being declared as
a texture as well; a texture that takes another built-in's name, or the name of a sampling function,
is declared all the same.

* `Preamble.declarations`: the declared names, each with the line that declares it;
* `Preamble.sublist_declarations`: the preamble has these lines, in this order;
* `Preamble.nodup_names_iff`: when the names are distinct, for any dialect;
* `nodup_globals_iff`: when they are for the standard dialect, in terms of the shader.
-/

namespace ShaderPreview

open Text

namespace Preamble

/-- The names that the preamble declares for some textures, each with the line that declares it. -/
def declarations (d : Dialect) (textures : List String) : List (String × String) :=
  d.builtins.map (fun b => (b.2, uniform b.1 b.2)) ++
    (textures.map (fun name => (name, uniform "sampler2D" name)) ++
      textures.map fun name => (name ++ "_eval", "vec4 " ++ name ++ "_eval(vec2 p) \x7b"))

/-- The names that the preamble declares for some textures. -/
def globals (d : Dialect) (textures : List String) : List String :=
  (declarations d textures).map Prod.fst

variable {d : Dialect} {textures : List String}

theorem globals_eq (d : Dialect) (textures : List String) : globals d textures =
    d.builtins.map Prod.snd ++ (textures ++ textures.map (· ++ "_eval")) := by
  simp only [globals, declarations, List.map_append, List.map_map, Function.comp_def, List.map_id']

/-- The head of each sampling function is a line of the preamble. -/
theorem sublist_samplings (d : Dialect) (textures : List String) :
    (textures.map fun name => "vec4 " ++ name ++ "_eval(vec2 p) \x7b").Sublist
      (textures.flatMap fun name => "" :: sampling d name) := by
  induction textures with
  | nil => exact List.Sublist.refl _
  | cons name textures ih =>
    rw [List.map_cons, List.flatMap_cons]
    have hhead : ["vec4 " ++ name ++ "_eval(vec2 p) \x7b"].Sublist ("" :: sampling d name) :=
      List.singleton_sublist.2 (by simp [sampling])
    exact hhead.append ih

/-- The declarations of textures are lines of the preamble. -/
theorem sublist_textureLines (d : Dialect) (textures : List String) :
    (textures.map (uniform "sampler2D") ++
      textures.map fun name => "vec4 " ++ name ++ "_eval(vec2 p) \x7b").Sublist
        (textureLines d textures) := by
  unfold textureLines
  split
  · next h =>
    rw [List.isEmpty_iff.1 h]
    exact List.Sublist.refl _
  · exact ((List.Sublist.refl _).append (sublist_samplings d textures)).cons ""

/-- The lines that declare names are lines of the preamble, each in its place. -/
theorem sublist_declarations (d : Dialect) (textures : List String) :
    ((declarations d textures).map Prod.snd).Sublist (Preamble.lines d textures) := by
  have hlines : (declarations d textures).map Prod.snd =
      d.builtins.map (fun b => uniform b.1 b.2) ++ (textures.map (uniform "sampler2D") ++
        textures.map fun name => "vec4 " ++ name ++ "_eval(vec2 p) \x7b") := by
    simp only [declarations, List.map_append, List.map_map, Function.comp_def]
  have hlast (front : List String) : (textureLines d textures).Sublist
      (front ++ (textureLines d textures ++ [""])) :=
    (List.sublist_append_left _ _).trans (List.sublist_append_right _ _)
  rw [hlines]
  simp only [Preamble.lines, List.append_assoc, List.cons_append]
  refine ((List.Sublist.refl _).append ((sublist_textureLines d textures).trans ?_)).cons _
  simpa only [List.append_assoc, List.cons_append, List.nil_append] using
    hlast ("" :: d.typeAliases.map (fun a => spell a.1 a.2) ++
      d.builtinAliases.map (fun a => spell a.1 a.2) ++
      "" :: d.resolutionAliases.map (fun a => spell a d.resolution) ++ "" :: standardFunctions)

/-- The names are distinct when the built-ins are, and no texture and no sampling function takes a
name that is taken. -/
theorem nodup_names_iff (htextures : textures.Nodup) : (globals d textures).Nodup ↔
    (d.builtins.map Prod.snd).Nodup ∧ ∀ t ∈ textures, t ∉ d.builtins.map Prod.snd ∧
      t ++ "_eval" ∉ d.builtins.map Prod.snd ∧ t ++ "_eval" ∉ textures := by
  have hsamplings : (textures.map (· ++ "_eval")).Nodup :=
    htextures.map fun t u h => (String.append_left_inj "_eval").1 h
  rw [globals_eq, List.nodup_append, List.nodup_append]
  constructor
  · rintro ⟨hbuiltins, ⟨-, -, hown⟩, hother⟩
    refine ⟨hbuiltins, fun t ht => ?_⟩
    have hsampling : t ++ "_eval" ∈ textures.map (· ++ "_eval") := List.mem_map_of_mem ht
    exact ⟨fun h => hother t h t (List.mem_append_left _ ht) rfl,
      fun h => hother _ h _ (List.mem_append_right _ hsampling) rfl,
      fun h => hown _ h _ hsampling rfl⟩
  · rintro ⟨hbuiltins, hall⟩
    refine ⟨hbuiltins, ⟨htextures, hsamplings, ?_⟩, ?_⟩
    · rintro u hu _ hmem rfl
      obtain ⟨t, ht, rfl⟩ := List.mem_map.1 hmem
      exact (hall t ht).2.2 hu
    · rintro u hu _ hmem rfl
      rcases List.mem_append.1 hmem with ht | hmem
      · exact (hall u ht).1 hu
      · obtain ⟨t, ht, rfl⟩ := List.mem_map.1 hmem
        exact (hall t ht).2.1 hu

/-- No built-in of the standard dialect has a name like that of a sampling function. -/
theorem eval_not_mem_builtins (t : String) :
    t ++ "_eval" ∉ Dialect.standard.builtins.map Prod.snd := by
  intro hmem
  have hnot : ∀ b ∈ Dialect.standard.builtins.map Prod.snd, ¬ "_eval".toList <:+ b.toList := by
    decide
  exact hnot _ hmem (by rw [String.toList_append]; exact List.suffix_append _ _)

end Preamble

/-- With the standard dialect, the names that the preamble declares are distinct if and only if the
shader declares no texture under the name of the resolution, the time or the mouse, and none under
the name of another texture's sampling function.  Each name has a line of its own in the preamble, so
a name that is not distinct is declared twice. -/
theorem nodup_globals_iff (source : String) :
    ((Preamble.declarations .standard (Program.ofSource .standard source).textures).map
        Prod.snd).Sublist (Preamble.lines .standard (Program.ofSource .standard source).textures) ∧
      ((Preamble.globals .standard (Program.ofSource .standard source).textures).Nodup ↔
        ∀ names, Texture.Listed source.toList names → ∀ t ∈ names, t ≠ "uShapeMask" →
          t ∉ ["iResolution", "iTime", "iMouse"] ∧ t ++ "_eval" ∉ names) := by
  refine ⟨Preamble.sublist_declarations _ _, ?_⟩
  have hfirst := Program.firstOccurrences_textures .standard source
  have hbuiltins : Dialect.standard.builtins.map Prod.snd =
      ["iResolution", "iTime", "iMouse"] ++ ["uShapeMask"] := rfl
  rw [Preamble.nodup_names_iff hfirst.nodup]
  constructor
  · rintro ⟨-, hall⟩ names hnames t ht hmask
    rw [Texture.listed_iff.1 hnames] at ht ⊢
    obtain ⟨hown, -, hsampling⟩ := hall t ((hfirst.mem_iff t).2 ⟨ht, hmask⟩)
    rw [hbuiltins, List.mem_append, not_or] at hown
    refine ⟨hown.1, fun hmem => hsampling ((hfirst.mem_iff _).2 ⟨hmem, fun heq => ?_⟩)⟩
    exact Preamble.eval_not_mem_builtins t (by rw [heq]; decide)
  · intro hall
    refine ⟨by decide, fun t ht => ?_⟩
    obtain ⟨hmem, hmask⟩ := (hfirst.mem_iff t).1 ht
    obtain ⟨hown, hsampling⟩ := hall _ (Texture.listed_iff.2 rfl) t hmem hmask
    refine ⟨?_, Preamble.eval_not_mem_builtins t, fun h => hsampling ((hfirst.mem_iff _).1 h).1⟩
    rw [hbuiltins, List.mem_append, not_or]
    exact ⟨hown, fun h => hmask (List.mem_singleton.1 h)⟩

/-- A texture that takes the name of the time, and one that takes the name of a sampling function. -/
theorem time_declared_twice :
    ¬ (Preamble.globals .standard
        (Program.ofSource .standard "uniform shader iTime;").textures).Nodup ∧
      ¬ (Preamble.globals .standard (Program.ofSource .standard
        "uniform shader photo;\nuniform shader photo_eval;").textures).Nodup := by
  decide +kernel

end ShaderPreview
