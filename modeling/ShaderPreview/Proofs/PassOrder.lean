import Mathlib.Data.List.Pairwise
import ShaderPreview.Proofs.LineFidelity
import ShaderPreview.Proofs.Pattern.Openings

/-!
# The order of the last stages

Calls are flattened, loops get whole counters and the entry function is renamed, in this order.  The
three stages search the same text, and any word may stand anywhere in it: an entry function may be
called `for` or `eval`, a counter `vec4`.  Still the order makes no difference.

## 1.  The openings

A call opens with a word in front of `.e`, and what takes its place with a word that ends in `_eval`,
in front of a parenthesis.  A loop opens with `for`, a parenthesis and a type; a signature with the
type of a colour and another word.  In this form the last two cover what takes their places, too.

## 2.  Where they cannot start

For each construct, the other openings are outside of what is found and of what is put in.  There is
one exception: inside a signature of a function whose name ends in `_eval` stands what could have
been put there for a call.

## 3.  The stages

`last_stages_commute` excludes this one name and says that the stages may be permuted.
-/

namespace ShaderPreview

open Text

variable {o : Opening} {ps : List Part} {cs rest : List Char}

/-! ## 1.  The openings -/

namespace EvalCall

/-- A word in front of `.e`. -/
def opening : Opening where
  Shape _ k := ".e".toList <+: k
  ahead := by
    rintro w _ ⟨k, rfl⟩
    exact ⟨[], '.', 'e' :: k, within_nil, Or.inl rfl, rfl⟩

/-- A word that ends in `_eval`, in front of a parenthesis. -/
def flatOpening : Opening where
  Shape w k := "_eval".toList <:+ w ∧ "(".toList <+: k
  ahead := by
    rintro w _ ⟨-, k, rfl⟩
    exact ⟨[], '(', k, within_nil, Or.inr (Or.inl rfl), rfl⟩

theorem signed_opening : opening.Signed := by
  rintro w _ ⟨k, rfl⟩
  exact ⟨[], '.', 'e' :: k, within_nil, by decide, by decide, rfl⟩

theorem signed_flatOpening : flatOpening.Signed := by
  rintro w _ ⟨-, k, rfl⟩
  exact ⟨[], '(', k, within_nil, by decide, by decide, rfl⟩

theorem beginsWith : pattern.BeginsWith opening := by
  intro cs rest texture h
  obtain ⟨_, ⟨hw, rfl⟩, mid, rfl, mid', rfl, -⟩ := spelling.read?_iff.1 h
  exact ⟨_, _, hw.toList_ne_nil, hw.within, (stops_append_of_ne_nil (by decide)).2 (by decide),
    ⟨"val".toList ++ mid', rfl⟩, rfl⟩

theorem putsWith : pattern.PutsWith flat flatOpening := by
  intro cs rest texture k h
  obtain ⟨_, ⟨hw, rfl⟩, -⟩ := spelling.read?_iff.1 h
  refine ⟨texture.toList ++ "_eval".toList, "(".toList ++ k, ?_, ?_,
    (stops_append_of_ne_nil (by decide)).2 (by decide),
    ⟨List.suffix_append _ _, List.prefix_append _ _⟩, ?_⟩
  · exact List.append_ne_nil_of_left_ne_nil hw.toList_ne_nil _
  · exact within_append.2 ⟨hw.within, by decide⟩
  · unfold flat
    simp only [List.append_assoc]
    rfl

end EvalCall

namespace FloatLoop

/-- The word `for`, a parenthesis, and one of the two types of counters. -/
def opening : Opening where
  Shape w k := w = "for".toList ∧ ∃ b b' t k', Within isBlank b ∧ Within isBlank b' ∧
    t ∈ ["float", "int"] ∧ Stops isWordChar k' ∧ k = b ++ '(' :: (b' ++ (t.toList ++ k'))
  ahead := by
    rintro w _ ⟨-, b, _, _, _, hb, -, -, -, rfl⟩
    exact ⟨b, '(', _, hb, Or.inr (Or.inl rfl), rfl⟩

theorem signed_opening : opening.Signed := by
  rintro w _ ⟨-, b, _, _, _, hb, -, -, -, rfl⟩
  exact ⟨b, '(', _, hb, by decide, by decide, rfl⟩

/-- A text that goes on like a loop has the opening of one. -/
theorem begins_opening {b b' k : List Char} {t : String} (hb : Within isBlank b)
    (hb' : Within isBlank b') (ht : t ∈ ["float", "int"]) (hk : Stops isWordChar k) :
    opening.Begins ("for".toList ++ (b ++ '(' :: (b' ++ (t.toList ++ k)))) :=
  ⟨_, _, by decide, by decide,
    hb.stops_append (fun _ => isWordChar_of_isBlank) (stops_cons.2 (by decide)),
    ⟨rfl, b, b', t, k, hb, hb', ht, hk, rfl⟩, rfl⟩

theorem beginsWith : pattern.BeginsWith opening := by
  intro cs rest l h
  obtain ⟨-, _, rfl, b, _, hb, rfl, _, rfl, b', _, hb', rfl, k, rfl, hr⟩ := reads_of_read? h
  exact begins_opening hb hb' (List.mem_cons_self ..) (hr.stops_isWordChar rfl)

theorem putsWith : pattern.PutsWith header opening := by
  intro cs rest l k _
  have hfor : "for (int ".toList = "for".toList ++ ([' '] ++ '(' :: ([] ++ ("int".toList ++ [' ']))) := by
    decide
  unfold header
  simp only [hfor, List.append_assoc, List.cons_append]
  exact begins_opening (b := [' ']) (by decide) within_nil (by decide) (stops_cons.2 (by decide))

end FloatLoop

namespace Entry

/-- The type of a colour, a gap and another word. -/
def opening : Opening where
  Shape w k := (∃ t ∈ colorTypes, w = t.toList) ∧
    ∃ b c k', b ≠ [] ∧ Within isBlank b ∧ isWordChar c = true ∧ k = b ++ c :: k'
  ahead := by
    rintro w _ ⟨-, b, c, k, -, hb, hc, rfl⟩
    exact ⟨b, c, k, hb, Or.inr (Or.inr hc), rfl⟩

/-- A text that goes on like a signature has the opening of one. -/
theorem begins_opening {color name : String} {b k : List Char} (hcolor : color ∈ colorTypes)
    (hne : b ≠ []) (hb : Within isBlank b) (hname : IsWord name) :
    opening.Begins (color.toList ++ (b ++ (name.toList ++ k))) := by
  have hword := isWord_of_mem_types (Or.inl hcolor)
  obtain ⟨c, w, hcw⟩ := List.exists_cons_of_ne_nil hname.toList_ne_nil
  have hc : isWordChar c = true := hname.within c (by rw [hcw]; exact List.mem_cons_self ..)
  rw [hcw]
  refine ⟨_, _, hword.toList_ne_nil, hword.within, ?_, ⟨⟨color, hcolor, rfl⟩, b, c, _, hne, hb, hc,
    rfl⟩, rfl⟩
  rw [stops_append_of_ne_nil hne]
  exact hb.stops fun _ => isWordChar_of_isBlank

theorem beginsWith {name : String} (hname : IsWord name) : (pattern name).BeginsWith opening := by
  intro cs rest parameter h
  obtain ⟨_, ⟨color, hcolor, _, -, _, -, -, rfl⟩, hr⟩ := forms_of_read? h
  obtain ⟨_, rfl, b, _, hne, hb, rfl, _, rfl, -⟩ := hr
  exact begins_opening hcolor hne hb hname

theorem putsWith {name user : String} (huser : IsWord user) :
    (pattern name).PutsWith (signature user) opening := by
  intro cs rest parameter k _
  have hcolor : "vec4 ".toList = "vec4".toList ++ [' '] := by decide
  unfold signature
  simp only [hcolor, List.append_assoc]
  exact begins_opening (by decide) (by decide) (by decide) huser

end Entry

/-! ## 2.  Where they cannot start -/

/-- Behind a word with a sign no signature opens. -/
theorem Entry.misses_of_fenced {w : String} (h : fenced ps = true) : opening.Misses w ps := by
  rintro v mid rest _ hr ⟨-, b, c, k, -, hb, hc, rfl⟩
  obtain ⟨b', c', k', hb', hword, hblank, heq⟩ := hr.exists_of_fenced h
  obtain ⟨-, rfl, -⟩ := Opening.eq_of_blanks_append hb (isBlank_of_isWordChar hc) hb' hblank heq
  exact Bool.noConfusion (hword.symm.trans hc)

/-- No signature opens with a word that ends in no type of a colour. -/
theorem Entry.misses_of_not_suffix {w : String}
    (h : ∀ t ∈ colorTypes, ¬ t.toList <:+ w.toList) : opening.Misses w ps := by
  rintro _ mid rest hv _ ⟨⟨t, ht, rfl⟩, -⟩
  exact h t ht hv

/-- No loop opens with a word that does not end in `for`. -/
theorem FloatLoop.misses_of_not_suffix {w : String} (h : ¬ "for".toList <:+ w.toList) :
    opening.Misses w ps := by
  rintro _ mid rest hv _ ⟨rfl, -⟩
  exact h hv

/-- No loop opens where another word than a counter's type stands behind the parenthesis. -/
theorem FloatLoop.misses_paren {w w' : String} (hw' : IsWord w') (hne : w' ∉ ["float", "int"])
    (he : endsWord ps = true) :
    opening.Misses w (.blanks :: .text "(" :: .blanks :: .text w' :: ps) := by
  rintro v mid rest _ hr ⟨-, b, b', t, k, hb, hb', ht, hk, heq⟩
  obtain ⟨_, _, hc, rfl, _, rfl, c', _, hc', rfl, mid', rfl, hr⟩ := hr
  have htword : ∀ t ∈ ["float", "int"], t.toList ≠ [] ∧ Within isWordChar t.toList := by decide
  obtain ⟨htne, htw⟩ := htword t ht
  have hstops {w k : List Char} (hw : Within isWordChar w) (hne : w ≠ []) :
      Stops isBlank (w ++ k) :=
    (stops_append_of_ne_nil hne).2 (hw.stops fun _ => isBlank_of_isWordChar)
  -- the same blanks, the same parenthesis, the same blanks and the same word
  obtain ⟨-, -, heq⟩ := Opening.eq_of_blanks_append (k := c' ++ (w'.toList ++ mid')) hc (by decide) hb
    (by decide) heq
  obtain ⟨-, heq⟩ := run_unique heq hc' (hstops hw'.within hw'.toList_ne_nil) hb' (hstops htw htne)
  obtain ⟨hword, -⟩ := run_unique heq hw'.within (hr.stops_isWordChar he) htw hk
  rw [String.toList_inj.1 hword] at hne
  exact hne ht

/-- What takes the place of a call ends in `_eval`. -/
theorem EvalCall.misses_flat_of_not_suffix {w : String} (h : ¬ "_eval".toList <:+ w.toList) :
    flatOpening.Misses w ps := by
  rintro v mid rest hv _ ⟨heval, -⟩
  exact h (heval.trans hv)

/-- No call opens in front of a parenthesis. -/
theorem EvalCall.misses_paren {w : String} : opening.Misses w (.blanks :: .text "(" :: ps) := by
  rintro v _ rest _ ⟨b, _, hb, rfl, _, rfl, -⟩ ⟨k, heq⟩
  obtain ⟨-, hparen, -⟩ := Opening.eq_of_blanks_append within_nil (by decide) hb (by decide) heq
  exact absurd hparen (by decide)

namespace EvalCall

theorem outside_parts (ho : o = FloatLoop.opening ∨ o = Entry.opening) {texture : String}
    (hw : IsWord texture) : o.Outside (parts texture) := by
  have hpoint : o.Misses texture [.text ".eval", .blanks, .text "("] := by
    rcases ho with rfl | rfl
    · rintro v mid rest _ ⟨_, rfl, -⟩ ⟨-, b, _, _, _, hb, -, -, -, heq⟩
      obtain ⟨-, hparen, -⟩ := Opening.eq_of_blanks_append within_nil (by decide) hb (by decide) heq
      exact absurd hparen (by decide)
    · exact Entry.misses_of_fenced rfl
  have heval : o.Misses "eval" [.blanks, .text "("] := by
    rcases ho with rfl | rfl
    · exact FloatLoop.misses_of_not_suffix (by decide)
    · exact Entry.misses_of_fenced rfl
  exact .word hw.within rfl hpoint <| .joined "." "eval" rfl <| .sign (by decide) <|
    .word (by decide) rfl heval <| .blanks <| .sign (by decide) Opening.outside_nil

theorem outside_flat (ho : o = FloatLoop.opening ∨ o = Entry.opening) {texture : String}
    (hw : IsWord texture) : o.Outside [.text (texture ++ "_eval"), .text "("] := by
  refine .word (within_flatName hw) rfl ?_ <| .sign (by decide) Opening.outside_nil
  rcases ho with rfl | rfl
  · -- of two ends of a word the shorter is an end of the longer
    refine FloatLoop.misses_of_not_suffix fun h => ?_
    have heval : "_eval".toList <:+ (texture ++ "_eval").toList := by
      rw [String.toList_append]
      exact List.suffix_append _ _
    exact absurd (List.suffix_of_suffix_length_le h heval (by decide)) (by decide)
  · exact Entry.misses_of_fenced rfl

theorem excludes (ho : o = FloatLoop.opening ∨ o = Entry.opening) : pattern.Excludes o := by
  intro cs rest texture h
  obtain ⟨_, ⟨hw, rfl⟩, hr⟩ := spelling.read?_iff.1 h
  exact ⟨_, outside_parts ho hw, hr⟩

theorem excludesPut (ho : o = FloatLoop.opening ∨ o = Entry.opening) :
    pattern.ExcludesPut flat o := by
  intro cs rest texture h
  obtain ⟨_, ⟨hw, rfl⟩, -⟩ := spelling.read?_iff.1 h
  exact ⟨_, outside_flat ho hw, reads_flat texture⟩

end EvalCall

namespace FloatLoop

variable {l : FloatLoop}

/-- The openings of calls, of what takes their places, and of signatures. -/
def OtherOpening (o : Opening) : Prop :=
  o = EvalCall.opening ∨ o = EvalCall.flatOpening ∨ o = Entry.opening

theorem OtherOpening.misses_for (ho : OtherOpening o) :
    o.Misses "for" (.blanks :: .text "(" :: ps) := by
  rcases ho with rfl | rfl | rfl
  · exact EvalCall.misses_paren
  · exact EvalCall.misses_flat_of_not_suffix (by decide)
  · exact Entry.misses_of_fenced rfl

theorem OtherOpening.misses_type (ho : OtherOpening o) {t counter : String}
    (ht : t ∈ ["float", "int"]) (hc : IsWord counter) :
    o.Misses t (.gap :: .text counter :: ps) := by
  rcases ho with rfl | rfl | rfl
  · exact EvalCall.signed_opening.misses_gap hc
  · exact EvalCall.signed_flatOpening.misses_gap hc
  · refine Entry.misses_of_not_suffix ?_
    revert t
    decide

theorem OtherOpening.misses_bound (ho : OtherOpening o) {s : String} :
    o.Misses s (.text ".0" :: ps) := by
  rcases ho with rfl | rfl | rfl
  · rintro v _ rest _ ⟨_, rfl, -⟩ ⟨k, heq⟩
    obtain ⟨he, -⟩ := List.cons.inj (List.cons.inj heq).2
    exact absurd he (by decide)
  · rintro v _ rest _ ⟨_, rfl, -⟩ ⟨-, k, heq⟩
    exact absurd (List.cons.inj heq).1 (by decide)
  · exact Entry.misses_of_fenced rfl

/-- The opening is missed at the front of a header, at the type of its counter and at its bounds. -/
structure Missed (o : Opening) (front : String) : Prop where
  within : Within isWordChar front.toList
  at_front : ∀ {ps : List Part}, o.Misses front (.blanks :: .text "(" :: ps)
  at_type : ∀ {t counter : String} {ps : List Part}, t ∈ ["float", "int"] → IsWord counter →
    o.Misses t (.gap :: .text counter :: ps)
  at_bound : ∀ {s : String} {ps : List Part}, IsNumeral s → o.Misses s (.text ".0" :: ps)

theorem OtherOpening.missed (ho : OtherOpening o) : Missed o "for" where
  within := by decide
  at_front := ho.misses_for
  at_type := ho.misses_type
  at_bound _ := ho.misses_bound

variable {front : String}

theorem outside_parts (ho : Missed o front) (hl : l.Proper) :
    o.Outside (.text front :: l.parts.tail) := by
  have hc := hl.counter.within
  exact .word ho.within rfl ho.at_front <| .blanks <| .sign (by decide) <| .blanks <|
    .word (by decide) rfl (ho.at_type (by decide) hl.counter) <| .gap <|
    .closed hc rfl <| .blanks <| .sign (by decide) <| .blanks <|
    .word hl.start.isWord.within rfl (ho.at_bound hl.start) <| .joined "." "0" rfl <|
    .sign (by decide) <| .closed (by decide) rfl <| .blanks <| .sign (by decide) <| .blanks <|
    .closed hc rfl <| .blanks <| .sign (by decide) <| .blanks <|
    .word hl.stop.isWord.within rfl (ho.at_bound hl.stop) <| .joined "." "0" rfl <|
    .sign (by decide) <| .closed (by decide) rfl <| .blanks <| .sign (by decide) <| .blanks <|
    .closed hc rfl <| .blanks <| .sign (by decide) <| .blanks <|
    .sign (by decide) Opening.outside_nil

/-- The parts of a header that counts in whole numbers. -/
def wholeParts (l : FloatLoop) : List Part :=
  [.text "for", .blanks, .text "(", .text "int", .gap, .text l.counter, .blanks, .text "=", .blanks,
   .text l.start, .text ";", .blanks, .text l.counter, .blanks, .text "<", .blanks, .text l.stop,
   .text ";", .blanks, .text l.counter, .text "++)"]

theorem reads_header (l : FloatLoop) : Reads l.wholeParts l.header [] := by
  rw [header_eq]
  exact .text_append <| .space <| .text_append <| .text_append <| .space_gap <| .text_append <|
    .space <| .text_append <| .space <| .text_append <| .text_append <| .space <| .text_append <|
    .space <| .text_append <| .space <| .text_append <| .text_append <| .space <| .text_append <|
    reads_text_last _

theorem outside_wholeParts (ho : Missed o front) (hl : l.Proper) :
    o.Outside (.text front :: l.wholeParts.tail) := by
  have hc := hl.counter.within
  exact .word ho.within rfl ho.at_front <| .blanks <| .sign (by decide) <|
    .word (by decide) rfl (ho.at_type (by decide) hl.counter) <| .gap <|
    .closed hc rfl <| .blanks <| .sign (by decide) <| .blanks <|
    .closed hl.start.isWord.within rfl <| .sign (by decide) <| .blanks <|
    .closed hc rfl <| .blanks <| .sign (by decide) <| .blanks <|
    .closed hl.stop.isWord.within rfl <| .sign (by decide) <| .blanks <|
    .closed hc rfl <| .sign (by decide) Opening.outside_nil

theorem excludes (ho : OtherOpening o) : pattern.Excludes o := by
  intro cs rest l h
  obtain ⟨hl, hr⟩ := reads_of_read? h
  exact ⟨_, outside_parts ho.missed hl, hr⟩

theorem excludesPut (ho : OtherOpening o) : pattern.ExcludesPut header o := by
  intro cs rest l h
  exact ⟨_, outside_wholeParts ho.missed (reads_of_read? h).1, reads_header l⟩

end FloatLoop

namespace Entry

variable {name user : String}

/-- An opening with a sign that is missed behind the name of a function. -/
structure OtherOpening (name : String) (o : Opening) : Prop where
  signed : o.Signed
  misses_name : ∀ {w : String} {ps : List Part}, w ∈ "in" :: coordinateTypes →
    endsWord ps = true → o.Misses name (.blanks :: .text "(" :: .blanks :: .text w :: ps)

theorem otherOpening_call (name : String) : OtherOpening name EvalCall.opening where
  signed := EvalCall.signed_opening
  misses_name _ _ := EvalCall.misses_paren

theorem otherOpening_flat (h : ¬ "_eval".toList <:+ name.toList) :
    OtherOpening name EvalCall.flatOpening where
  signed := EvalCall.signed_flatOpening
  misses_name _ _ := EvalCall.misses_flat_of_not_suffix h

theorem otherOpening_loop (name : String) : OtherOpening name FloatLoop.opening where
  signed := FloatLoop.signed_opening
  misses_name hw he := by
    have hwords : ∀ w ∈ "in" :: coordinateTypes,
        (w ≠ "" ∧ Within isWordChar w.toList) ∧ w ∉ ["float", "int"] := by decide
    obtain ⟨⟨hne, hword⟩, hnot⟩ := hwords _ hw
    exact FloatLoop.misses_paren ⟨hne, hword⟩ hnot he

/-- The opening is missed in a signature: at a word in front of another one, and at the name. -/
structure Missed (name front : String) (o : Opening) : Prop where
  within : Within isWordChar front.toList
  at_gap : ∀ {w w' : String} {ps : List Part}, w ∈ front :: "in" :: coordinateTypes → IsWord w' →
    o.Misses w (.gap :: .text w' :: ps)
  at_name : ∀ {w : String} {ps : List Part}, w ∈ "in" :: coordinateTypes → endsWord ps = true →
    o.Misses name (.blanks :: .text "(" :: .blanks :: .text w :: ps)

theorem OtherOpening.missed (ho : OtherOpening name o) {color : String} (hcolor : color ∈ colorTypes) :
    Missed name color o where
  within := (isWord_of_mem_types (Or.inl hcolor)).within
  at_gap _ := ho.signed.misses_gap
  at_name := ho.misses_name

theorem outside_parts {front : String} (ho : Missed name front o) (hname : IsWord name)
    {coordinate parameter : String} {qualifier : List Part} (hq : qualifier ∈ qualifiers)
    (hc : coordinate ∈ coordinateTypes) (hparam : IsWord parameter) :
    o.Outside (parts name front qualifier coordinate parameter) := by
  have hcoordinate := isWord_of_mem_types (Or.inr hc)
  have htail : o.Outside [.text coordinate, .gap, .text parameter, .blanks, .text ")"] :=
    .word hcoordinate.within rfl (ho.at_gap (by simp [hc]) hparam) <| .gap <|
      .closed hparam.within rfl <| .blanks <| .sign (by decide) Opening.outside_nil
  refine .word ho.within rfl (ho.at_gap (List.mem_cons_self ..) hname) <| .gap ?_
  simp only [qualifiers, List.mem_cons, List.not_mem_nil, or_false] at hq
  rcases hq with rfl | rfl
  · exact .word hname.within rfl (ho.at_name (List.mem_cons_of_mem _ hc) rfl) <| .blanks <|
      .sign (by decide) <| .blanks htail
  · exact .word hname.within rfl (ho.at_name (List.mem_cons_self ..) rfl) <| .blanks <|
      .sign (by decide) <| .blanks <| .word (by decide) rfl (ho.at_gap (by simp) hcoordinate) <|
      .gap htail

theorem reads_signature (user parameter : String) :
    Reads (parts user "vec4" [] "vec2" parameter) (signature user parameter) [] := by
  have hcolor : "vec4 ".toList = "vec4".toList ++ [' '] := by decide
  have hcoordinate : "(vec2 ".toList = "(".toList ++ ("vec2".toList ++ [' ']) := by decide
  unfold signature
  simp only [hcolor, hcoordinate, List.append_assoc, List.cons_append, List.nil_append]
  exact .text_append <| .space_gap <| .text_append <| .no_blanks <| .text_append <| .no_blanks <|
    .text_append <| .space_gap <| .text_append <| .no_blanks <| reads_text_last _

theorem excludes (ho : OtherOpening name o) (hname : IsWord name) : (pattern name).Excludes o := by
  intro cs rest parameter h
  obtain ⟨_, ⟨color, hcolor, qualifier, hq, coordinate, hc, hparam, rfl⟩, hr⟩ := forms_of_read? h
  exact ⟨_, outside_parts (ho.missed hcolor) hname hq hc hparam, hr⟩

theorem excludesPut (ho : OtherOpening user o) (huser : IsWord user) :
    (pattern name).ExcludesPut (signature user) o := by
  intro cs rest parameter h
  obtain ⟨_, ⟨_, -, _, -, _, -, hparam, -⟩, -⟩ := forms_of_read? h
  exact ⟨_, outside_parts (ho.missed (by decide)) huser (List.mem_cons_self ..) (by decide) hparam,
    reads_signature user parameter⟩

end Entry

/-! ## 3.  The stages -/

theorem commute_flattenCalls_countInWholeNumbers :
    Function.Commute flattenCalls countInWholeNumbers := by
  refine (Pattern.rewrites_replace _ _).commute (Pattern.rewrites_replace _ _) EvalCall.spelling
    FloatLoop.spelling ?_ ?_
  · exact Pattern.undisturbed_of_outside EvalCall.beginsWith (FloatLoop.excludes (Or.inl rfl))
      (FloatLoop.excludesPut (Or.inl rfl)) FloatLoop.putsWith (EvalCall.excludes (Or.inl rfl))
  · exact Pattern.undisturbed_of_outside FloatLoop.beginsWith (EvalCall.excludes (Or.inl rfl))
      (EvalCall.excludesPut (Or.inl rfl)) EvalCall.putsWith (FloatLoop.excludes (Or.inr (Or.inl rfl)))

section Entry

variable (d : Dialect)

theorem commute_countInWholeNumbers_renameEntry :
    Function.Commute countInWholeNumbers (renameEntry d) := by
  have hname := d.isWord_entryPoint
  have huser := d.isWord_userEntry
  refine (Pattern.rewrites_replace _ _).commute (Pattern.rewrites_replaceFirst _ _)
    FloatLoop.spelling (Entry.spelling hname) ?_ ?_
  · exact Pattern.undisturbed_of_outside FloatLoop.beginsWith
      (Entry.excludes (Entry.otherOpening_loop _) hname)
      (Entry.excludesPut (Entry.otherOpening_loop _) huser) (Entry.putsWith huser)
      (FloatLoop.excludes (Or.inr (Or.inr rfl)))
  · exact Pattern.undisturbed_of_outside (Entry.beginsWith hname)
      (FloatLoop.excludes (Or.inr (Or.inr rfl))) (FloatLoop.excludesPut (Or.inr (Or.inr rfl)))
      FloatLoop.putsWith (Entry.excludes (Entry.otherOpening_loop _) hname)

theorem commute_flattenCalls_renameEntry (h : ¬ "_eval".toList <:+ d.entryPoint.toList) :
    Function.Commute flattenCalls (renameEntry d) := by
  have hname := d.isWord_entryPoint
  have huser := d.isWord_userEntry
  refine (Pattern.rewrites_replace _ _).commute (Pattern.rewrites_replaceFirst _ _)
    EvalCall.spelling (Entry.spelling hname) ?_ ?_
  · exact Pattern.undisturbed_of_outside EvalCall.beginsWith
      (Entry.excludes (Entry.otherOpening_call _) hname)
      (Entry.excludesPut (Entry.otherOpening_call _) huser) (Entry.putsWith huser)
      (EvalCall.excludes (Or.inr rfl))
  · exact Pattern.undisturbed_of_outside (Entry.beginsWith hname) (EvalCall.excludes (Or.inr rfl))
      (EvalCall.excludesPut (Or.inr rfl)) EvalCall.putsWith
      (Entry.excludes (Entry.otherOpening_flat h) hname)

end Entry

/-- Stages that commute pairwise may be carried out in any order. -/
theorem foldl_stages_eq_of_perm {stages order : List (List Char → List Char)}
    (hcommute : stages.Pairwise Function.Commute) (hperm : order.Perm stages) (cs : List Char) :
    order.foldl (fun cs stage => stage cs) cs = stages.foldl (fun cs stage => stage cs) cs := by
  have : Std.Symm (@Function.Commute (List Char)) := ⟨fun _ _ h => h.symm⟩
  have hall : ∀ f ∈ stages, ∀ g ∈ stages, Function.Commute f g := fun f hf g hg =>
    hcommute.forall_of_forall (fun f _ => Function.Commute.refl f) hf hg
  exact (hperm.symm.foldl_eq' (fun f hf g hg cs => hall g hg f hf cs) cs).symm

/-- Flattening calls, counting loops in whole numbers and renaming the entry function commute pairwise,
if the name of the entry function does not end in `_eval`, so that every order gives the same text. -/
theorem last_stages_commute (d : Dialect) (h : ¬ "_eval".toList <:+ d.entryPoint.toList) :
    Function.Commute flattenCalls countInWholeNumbers ∧
      Function.Commute flattenCalls (renameEntry d) ∧
      Function.Commute countInWholeNumbers (renameEntry d) ∧
      ∀ order : List (List Char → List Char),
        order.Perm [flattenCalls, countInWholeNumbers, renameEntry d] → ∀ cs,
          order.foldl (fun cs stage => stage cs) cs =
            renameEntry d (countInWholeNumbers (flattenCalls cs)) := by
  have hcl := commute_flattenCalls_countInWholeNumbers
  have hce := commute_flattenCalls_renameEntry d h
  have hle := commute_countInWholeNumbers_renameEntry d
  refine ⟨hcl, hce, hle, fun order hperm cs => ?_⟩
  refine foldl_stages_eq_of_perm (List.pairwise_cons.2 ⟨?_, List.pairwise_pair.2 hle⟩) hperm cs
  intro stage hstage
  rcases List.mem_cons.1 hstage with rfl | hstage
  · exact hcl
  · exact List.mem_singleton.1 hstage ▸ hce

/-- A shader whose entry function is called `eval` and whose counter is called `vec4`. -/
theorem last_stages_commute_of_eval :
    ∃ d : Dialect, d.entryPoint = "eval" ∧
      [renameEntry d, countInWholeNumbers, flattenCalls].foldl (fun cs stage => stage cs)
        "half4 eval(in float2 p) { for (float vec4 = 0.0; vec4 < 4.0; vec4++) c = t.eval (p); }".toList =
        "vec4 userMain(vec2 p) { for (int vec4 = 0; vec4 < 4; vec4++) c = t_eval(p); }".toList := by
  let d : Dialect :=
    { Dialect.standard with
      entryPoint := "eval", identifiers := by decide, userEntry_ne := by decide }
  refine ⟨d, rfl, ?_⟩
  have horder : [renameEntry d, countInWholeNumbers, flattenCalls].Perm
      [flattenCalls, countInWholeNumbers, renameEntry d] :=
    List.reverse_perm [flattenCalls, countInWholeNumbers, renameEntry d]
  rw [(last_stages_commute d (by decide)).2.2.2 _ horder]
  decide +kernel

/-- With a name that ends in `_eval` the order matters: a call is flattened to a signature. -/
example :
    let d : Dialect :=
      { Dialect.standard with
        entryPoint := "t_eval", identifiers := by decide, userEntry_ne := by decide }
    renameEntry d (flattenCalls "half4 t.eval(float2 p)".toList) ≠
      flattenCalls (renameEntry d "half4 t.eval(float2 p)".toList) := by
  decide +kernel

end ShaderPreview
