import Mathlib.Data.List.Forall2
import ShaderPreview.Proofs.LineGrammar
import ShaderPreview.Uniform.Listing

/-!
# Listings can be read back

A listing is meant for a reader, who sees the text only.  The columns of a table are as wide as the
longest name makes them, so the same uniform is laid out differently in different tables; and a table
without uniforms is a remark, which must not look like a row.  This module reads the names and the kinds
back from a listing.  For a table this works because the names of uniforms are words and the remark does
not name a kind, and for JSON because every uniform has one line for each of its fields.

* `Listing.Aligned`: the layout of a line in a table;
* `Listing.readTable`, `Listing.readTable_table`: what a table says;
* `Listing.readJson`, `Listing.readJson_json`: what a JSON text says;
* `listings_lose_nothing`: listings are equal if and only if they list the same names and kinds, and the
  kinds in a table are in one column.
-/

namespace ShaderPreview

open Text

/-- A uniform of a shader is named by a word. -/
theorem Uniform.isWord_name {d : Dialect} {source : String} {u : Uniform} (h : u ∈ ofSource d source) :
    IsWord u.name := by
  obtain ⟨⟨l, -, hl⟩, -⟩ := exists_line_of_mem_ofSource h
  obtain ⟨-, hfirst, -⟩ := ofLine?_eq_some_iff.1 hl
  obtain ⟨s, -, hs⟩ := Splitting.first?_eq_some_iff.1 hfirst
  obtain ⟨-, hname⟩ := Statement.mk.inj hs
  exact hname ▸ s.name_isWord

theorem ControlKind.mem_all (kind : ControlKind) : kind ∈ all := by
  cases kind <;> decide

theorem ControlKind.isWord_name (kind : ControlKind) : IsWord kind.name := by
  cases kind <;> exact ⟨by decide, by decide⟩

namespace Listing

variable {us : List Uniform} {u : Uniform} {width column : Nat}

/-- What a listing tells of a uniform. -/
def entry (u : Uniform) : String × ControlKind :=
  (u.name, u.kind)

/-! ## 1.  Tables -/

/-- The line has the name of the uniform, blanks up to a column, and there the name of its kind as a
whole word. -/
def Aligned (column : Nat) (u : Uniform) (line : List Char) : Prop :=
  ∃ gap rest, line = u.name.toList ++ (gap ++ (u.kind.name.toList ++ rest)) ∧ gap ≠ [] ∧
    (∀ c ∈ gap, c = ' ') ∧ (u.name.toList ++ gap).length = column ∧ Stops isWordChar rest

/-- The name and the kind on a line. -/
def readRow? (line : List Char) : Option (String × ControlKind) :=
  let rest := (line.dropWhile isWordChar).dropWhile isBlank
  (ControlKind.ofName? (String.ofList (rest.takeWhile isWordChar))).map fun kind =>
    (String.ofList (line.takeWhile isWordChar), kind)

/-- The names and the kinds in a table.  Lines without a kind are passed over. -/
def readTable (text : String) : List (String × ControlKind) :=
  (lines text.toList).filterMap readRow?

theorem readRow?_of_aligned {line : List Char} (hname : IsWord u.name) (h : Aligned column u line) :
    readRow? line = some (entry u) := by
  obtain ⟨gap, rest, rfl, hne, hgap, -, hrest⟩ := h
  have hblank : Within isBlank gap := fun c hc => by
    rw [hgap c hc]
    rfl
  have hkind := u.kind.isWord_name
  have hstops : Stops isWordChar (gap ++ (u.kind.name.toList ++ rest)) :=
    (stops_append_of_ne_nil hne).2 (hblank.stops fun _ => isWordChar_of_isBlank)
  rw [readRow?, takeWhile_append_of_stops hname.within hstops,
    dropWhile_append_of_stops hname.within hstops,
    dropWhile_append_of_stops hblank (hkind.stops_isBlank rest),
    takeWhile_append_of_stops hkind.within hrest, String.ofList_toList, String.ofList_toList,
    ControlKind.ofName?_name]
  rfl

theorem toList_paddedText (s : String) :
    (paddedText width s).toList = s.toList ++ List.replicate (width - s.length) ' ' := by
  rw [paddedText, String.toList_append, String.toList_ofList]

theorem toList_row : (row width u).toList =
    u.name.toList ++ (List.replicate (width - u.name.length) ' ' ++ ("  ".toList ++
      (u.kind.name.toList ++ (List.replicate (5 - u.kind.name.length) ' ' ++ ("  ".toList ++
        (initialText u.kind).toList))))) := by
  simp only [row, String.toList_append, toList_paddedText, List.append_assoc]

theorem aligned_row (h : u.name.length ≤ width) : Aligned (width + 2) u (row width u).toList := by
  refine ⟨List.replicate (width - u.name.length) ' ' ++ "  ".toList,
    List.replicate (5 - u.kind.name.length) ' ' ++ ("  ".toList ++ (initialText u.kind).toList),
    ?_, ?_, ?_, ?_, ?_⟩
  · rw [toList_row, List.append_assoc]
  · simp
  · have htwo : "  ".toList = List.replicate 2 ' ' := rfl
    rw [htwo]
    exact List.forall_mem_append.2 ⟨fun c => List.eq_of_mem_replicate, fun c => List.eq_of_mem_replicate⟩
  · have htwo : "  ".toList.length = 2 := rfl
    rw [List.length_append, List.length_append, List.length_replicate, String.length_toList, htwo]
    omega
  · cases 5 - u.kind.name.length <;> rfl

theorem newline_notMem_initialText (kind : ControlKind) : '\n' ∉ (initialText kind).toList := by
  have hall : ∀ kind ∈ ControlKind.all, '\n' ∉ (initialText kind).toList := by decide +kernel
  exact hall kind kind.mem_all

theorem newline_notMem_row (hname : IsWord u.name) : '\n' ∉ (row width u).toList := by
  have hwidth (n : Nat) : '\n' ∉ List.replicate n ' ' := fun h =>
    absurd (List.eq_of_mem_replicate h) (by decide)
  have htwo : '\n' ∉ "  ".toList := by decide
  simp only [toList_row, List.mem_append, not_or]
  exact ⟨hname.within.not_mem (by decide), hwidth _, htwo,
    u.kind.isWord_name.within.not_mem (by decide), hwidth _, htwo, newline_notMem_initialText _⟩

/-- A table has one line for each uniform. -/
theorem lines_table (hne : us ≠ []) (hnames : ∀ u ∈ us, IsWord u.name) :
    lines (table us).toList = us.map fun u => (row (nameWidth us) u).toList := by
  have hrows : ∀ l ∈ us.map fun u => (row (nameWidth us) u).toList, '\n' ∉ l := by
    intro l hl
    obtain ⟨u, hu, rfl⟩ := List.mem_map.1 hl
    exact newline_notMem_row (hnames u hu)
  rw [table, if_neg (by simpa using hne), String.toList_intercalate, List.map_map]
  exact List.splitOn_intercalate '\n' hrows (by simpa using hne)

/-- The width of the first column is the length of a longest name. -/
theorem nameWidth_isLongest (hne : us ≠ []) :
    (∀ u ∈ us, u.name.length ≤ nameWidth us) ∧ ∃ u ∈ us, u.name.length = nameWidth us := by
  obtain ⟨n, hn⟩ := Option.ne_none_iff_exists'.1
    (mt List.max?_eq_none_iff.1 (mt List.map_eq_nil_iff.1 hne) :
      (us.map fun u => u.name.length).max? ≠ none)
  have hwidth : nameWidth us = n := by
    rw [nameWidth, List.foldl_max, hn, Option.getD_some, Nat.zero_max]
  obtain ⟨hmem, hle⟩ := List.max?_eq_some_iff.1 hn
  rw [hwidth]
  exact ⟨fun u hu => hle _ (List.mem_map_of_mem hu), List.mem_map.1 hmem⟩

/-- A table tells the names and the kinds. -/
theorem readTable_table (hnames : ∀ u ∈ us, IsWord u.name) : readTable (table us) = us.map entry := by
  by_cases hne : us = []
  · -- the remark has no kind where a row has one
    rw [hne]
    decide +kernel
  · rw [readTable, lines_table hne hnames, List.filterMap_map, ← List.filterMap_eq_map]
    refine List.filterMap_congr fun u hu => ?_
    rw [Function.comp_apply, Function.comp_apply]
    exact readRow?_of_aligned (hnames u hu) (aligned_row ((nameWidth_isLongest hne).1 u hu))

/-! ## 2.  JSON -/

/-- The fields of a uniform whose values are texts. -/
inductive TextField where
  | name
  | kind
  deriving DecidableEq

namespace TextField

/-- The key of a field, with what stands around it on its line. -/
def opening : TextField → String
  | name => "    \"name\": \""
  | kind => "    \"type\": \""

/-- The value of a field. -/
def value : TextField → Uniform → String
  | name, u => u.name
  | kind, u => u.kind.name

/-- The line of a field. -/
def line (f : TextField) (u : Uniform) : List Char :=
  f.opening.toList ++ ((f.value u).toList ++ "\",".toList)

/-- The value on a line, if the line is that of the field. -/
def read? (f : TextField) (line : List Char) : Option String :=
  (Read.literal? f.opening line).map fun rest => String.ofList (rest.takeWhile (· != '"'))

/-- The values of a field, from all lines of a text. -/
def readAll (f : TextField) (cs : List Char) : List String :=
  (lines cs).filterMap f.read?

variable {f g : TextField}

theorem isWord_value (hname : IsWord u.name) : IsWord (f.value u) := by
  cases f with
  | name => exact hname
  | kind => exact u.kind.isWord_name

theorem newline_notMem_line (hname : IsWord u.name) : '\n' ∉ f.line u := by
  have hopening : '\n' ∉ f.opening.toList := by cases f <;> decide
  simp only [line, List.mem_append, not_or]
  exact ⟨hopening, (isWord_value hname).within.not_mem (by decide), by decide⟩

theorem read?_line (hname : IsWord u.name) : f.read? (f.line u) = some (f.value u) := by
  have hquote : Within (· != '"') (f.value u).toList :=
    (isWord_value hname).within.mono fun c hc => by
      rw [bne_iff_ne]
      rintro rfl
      exact absurd hc (by decide)
  have hstops : Stops (· != '"') "\",".toList := rfl
  rw [read?, line, Read.literal?_eq_some_iff.2 rfl, Option.map_some,
    takeWhile_append_of_stops hquote hstops, String.ofList_toList]

theorem read?_line_of_ne (h : f ≠ g) : f.read? (g.line u) = none := by
  cases f <;> cases g
  · exact absurd rfl h
  · rfl
  · rfl
  · exact absurd rfl h

theorem readAll_append_newline (a b : List Char) :
    f.readAll (a ++ '\n' :: b) = f.readAll a ++ f.readAll b := by
  rw [readAll, lines_append_newline, List.filterMap_append]
  rfl

theorem readAll_line (hname : IsWord u.name) :
    f.readAll (g.line u) = if f = g then [f.value u] else [] := by
  rw [readAll, lines_of_not_mem (newline_notMem_line hname), List.filterMap_cons, List.filterMap_nil]
  split_ifs with h
  · rw [← h, read?_line hname]
  · rw [read?_line_of_ne h]

end TextField

/-- The names and the kinds in a JSON text. -/
def readJson (text : String) : List (String × ControlKind) :=
  (TextField.name.readAll text.toList).zip
    ((TextField.kind.readAll text.toList).filterMap ControlKind.ofName?)

/-- The lines of a uniform behind its name and its kind, and then `e`. -/
def initialLines (kind : ControlKind) (e : String) : List Char :=
  ("    \"default\": " ++ jsonValue "    " kind.initial ++ "\n  \x7d" ++ e).toList

/-- The lines of a uniform, the last of which ends in `e`. -/
theorem toList_jsonUniform (e : String) : "  ".toList ++ ((jsonUniform "  " u).toList ++ e.toList) =
    "  \x7b".toList ++ '\n' :: (TextField.name.line u ++ '\n' ::
      (TextField.kind.line u ++ '\n' :: initialLines u.kind e)) := by
  simp only [jsonUniform, jsonItems, List.isEmpty_cons, Bool.false_eq_true, if_false,
    String.intercalate_cons_cons, String.intercalate_singleton, String.toList_append, jsonText,
    TextField.line, TextField.opening, TextField.value, initialLines, List.append_assoc]
  rfl

variable {f : TextField}

theorem readAll_initialLines {e : String} (kind : ControlKind) (he : e ∈ ["", ","]) :
    f.readAll (initialLines kind e) = [] := by
  have hall : ∀ kind ∈ ControlKind.all, ∀ e ∈ ["", ","],
      TextField.name.readAll (initialLines kind e) = [] ∧
        TextField.kind.readAll (initialLines kind e) = [] := by decide +kernel
  cases f with
  | name => exact (hall kind kind.mem_all e he).1
  | kind => exact (hall kind kind.mem_all e he).2

/-- Every uniform has each of the fields once. -/
theorem readAll_jsonUniform {e : String} (hname : IsWord u.name) (he : e ∈ ["", ","]) :
    f.readAll ("  ".toList ++ ((jsonUniform "  " u).toList ++ e.toList)) = [f.value u] := by
  have hopening : f.readAll "  \x7b".toList = [] := by cases f <;> decide
  simp only [toList_jsonUniform, TextField.readAll_append_newline, readAll_initialLines _ he, hopening,
    TextField.readAll_line hname]
  cases f <;> rfl

/-- The lines of several uniforms, with a comma behind each but the last. -/
theorem readAll_items (hne : us ≠ []) (hnames : ∀ u ∈ us, IsWord u.name) :
    f.readAll ("  ".toList ++ (",\n  ".intercalate (us.map (jsonUniform "  "))).toList) =
      us.map f.value := by
  induction us with
  | nil => exact absurd rfl hne
  | cons u us ih =>
    obtain ⟨hu, hus⟩ := List.forall_mem_cons.1 hnames
    cases us with
    | nil =>
      have hlast := readAll_jsonUniform (f := f) hu (e := "") (by decide)
      rwa [String.toList_empty, List.append_nil] at hlast
    | cons u' us =>
      have hfirst := readAll_jsonUniform (f := f) hu (e := ",") (by decide)
      have hsplit (a b : List Char) : "  ".toList ++ (a ++ (",\n  ".toList ++ b)) =
          "  ".toList ++ (a ++ ",".toList) ++ '\n' :: ("  ".toList ++ b) := by
        simp
      rw [List.map_cons, List.map_cons, String.intercalate_cons_cons, String.toList_append,
        String.toList_append, List.append_assoc, hsplit, TextField.readAll_append_newline, hfirst,
        ← List.map_cons, ih (List.cons_ne_nil _ _) hus]
      rfl

theorem readAll_json (hnames : ∀ u ∈ us, IsWord u.name) :
    f.readAll (json us).toList = us.map f.value := by
  by_cases hne : us = []
  · rw [hne]
    cases f <;> decide
  · have hopening : f.readAll "[".toList = [] := by cases f <;> decide
    have hclosing : f.readAll "]".toList = [] := by cases f <;> decide
    have hlines : (json us).toList = "[".toList ++ '\n' ::
        ("  ".toList ++ (",\n  ".intercalate (us.map (jsonUniform "  "))).toList ++
          '\n' :: "]".toList) := by
      simp [json, jsonItems, hne]
    rw [hlines, TextField.readAll_append_newline, TextField.readAll_append_newline, hopening, hclosing,
      readAll_items hne hnames, List.nil_append, List.append_nil]

/-- A JSON text tells the names and the kinds. -/
theorem readJson_json (hnames : ∀ u ∈ us, IsWord u.name) : readJson (json us) = us.map entry := by
  have hkinds : (us.map TextField.kind.value).filterMap ControlKind.ofName? = us.map Uniform.kind := by
    rw [List.filterMap_map, ← List.filterMap_eq_map]
    exact List.filterMap_congr fun u _ => ControlKind.ofName?_name u.kind
  rw [readJson, readAll_json hnames, readAll_json hnames, hkinds, List.zip_map']
  rfl

/-! ## 3.  What listings depend on -/

variable {us' : List Uniform}

theorem map_eq_of_entries {β : Type} {g : Uniform → β} (g' : String × ControlKind → β)
    (h : us.map entry = us'.map entry) (hg : g = g' ∘ entry) : us.map g = us'.map g := by
  rw [hg, ← List.map_map, h, List.map_map]

theorem table_eq_of_entries (h : us.map entry = us'.map entry) : table us = table us' := by
  have hempty : us.isEmpty = us'.isEmpty := by
    rw [← List.isEmpty_map, h, List.isEmpty_map]
  have hwidth : nameWidth us = nameWidth us' :=
    congrArg (List.foldl max 0) (map_eq_of_entries (fun e => e.1.length) h rfl)
  have hrows (width : Nat) : us.map (row width) = us'.map (row width) :=
    map_eq_of_entries
      (fun e => paddedText width e.1 ++ "  " ++ paddedText 5 e.2.name ++ "  " ++ initialText e.2) h rfl
  rw [table, table, hempty, hwidth, hrows]

theorem json_eq_of_entries (h : us.map entry = us'.map entry) : json us = json us' := by
  have hitems : us.map (jsonUniform "  ") = us'.map (jsonUniform "  ") :=
    map_eq_of_entries (fun e => jsonItems "\x7b" "\x7d" "  "
      ["\"name\": " ++ jsonText e.1, "\"type\": " ++ jsonText e.2.name,
        "\"default\": " ++ jsonValue ("  " ++ "  ") e.2.initial]) h rfl
  rw [json, json, hitems]

end Listing

open Listing

/-- Two shaders have the same table if and only if they have the same names and kinds of uniforms in the
same order, and likewise the same JSON text.  A table of at least one uniform has one line for each of
them, and on every line the kind starts in the same column, two behind the end of the longest name. -/
theorem listings_lose_nothing (d d' : Dialect) (source source' : String) :
    (table (Uniform.ofSource d source) = table (Uniform.ofSource d' source') ↔
        (Uniform.ofSource d source).map entry = (Uniform.ofSource d' source').map entry) ∧
      (json (Uniform.ofSource d source) = json (Uniform.ofSource d' source') ↔
        (Uniform.ofSource d source).map entry = (Uniform.ofSource d' source').map entry) ∧
      (Uniform.ofSource d source ≠ [] → ∃ width,
        (∀ u ∈ Uniform.ofSource d source, u.name.length ≤ width) ∧
          (∃ u ∈ Uniform.ofSource d source, u.name.length = width) ∧
            List.Forall₂ (Aligned (width + 2)) (Uniform.ofSource d source)
              (lines (table (Uniform.ofSource d source)).toList)) := by
  have hnames (d : Dialect) (source : String) : ∀ u ∈ Uniform.ofSource d source, IsWord u.name :=
    fun u hu => Uniform.isWord_name hu
  refine ⟨⟨fun h => ?_, table_eq_of_entries⟩, ⟨fun h => ?_, json_eq_of_entries⟩, fun hne => ?_⟩
  · rw [← readTable_table (hnames d source), h, readTable_table (hnames d' source')]
  · rw [← readJson_json (hnames d source), h, readJson_json (hnames d' source')]
  · obtain ⟨hle, hlongest⟩ := nameWidth_isLongest hne
    refine ⟨_, hle, hlongest, ?_⟩
    rw [lines_table hne (hnames d source), List.forall₂_map_right_iff, List.forall₂_same]
    exact fun u hu => aligned_row (hle u hu)

/-- Other types and another layout of the shader, but the same names and kinds. -/
theorem listings_lose_nothing_of_two :
    let us := Uniform.ofSource .standard "uniform float a;\nlayout(color) uniform half4 tint;"
    let us' := Uniform.ofSource .standard "uniform float a;\n\n  uniform vec4  tint ; uniform int b;"
    us ≠ [] ∧ us ≠ us' ∧ table us = table us' ∧ json us = json us' ∧
      List.Forall₂ (Aligned 6) us (lines (table us).toList) := by
  intro us us'
  have hus : us = [⟨"a", "float", false⟩, ⟨"tint", "half4", true⟩] := by decide +kernel
  have hus' : us' = [⟨"a", "float", false⟩, ⟨"tint", "vec4", false⟩] := by decide +kernel
  have hne : us ≠ [] := by rw [hus]; exact List.cons_ne_nil _ _
  have hentries : us.map entry = us'.map entry := by rw [hus, hus']; rfl
  obtain ⟨htable, hjson, hlines⟩ := listings_lose_nothing .standard .standard _ _
  obtain ⟨width, hle, ⟨u, hu, hwidth⟩, haligned⟩ := hlines hne
  have hfour : width = 4 := by
    have hall : ∀ u ∈ us, u.name.length ≤ 4 := by rw [hus]; decide
    have htint : ⟨"tint", "half4", true⟩ ∈ us := by rw [hus]; decide
    exact Nat.le_antisymm (hwidth ▸ hall u hu) (hle _ htint)
  rw [hfour] at haligned
  exact ⟨hne, by rw [hus, hus']; decide, htable.2 hentries, hjson.2 hentries, haligned⟩

end ShaderPreview
