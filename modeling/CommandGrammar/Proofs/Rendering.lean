import Mathlib.Data.List.Basic
import CommandGrammar.Proofs.Brackets

/-!
# Descriptors as they are written

A descriptor is written spelling by spelling, each with its flag and the descriptors of its values,
and with the help after a gap. Its reader looks for three texts wherever they stand: a tab and two
spaces, where the help begins, and " or -", which is another way to write the comma between two
spellings. None of them stands in a spelling, however many values it takes, nor between spellings.

Within one value this is assumed. Between values, and wherever else two texts meet, a break would
begin in the first one and end in the second: the first has no blank, or the second does not go on
as a break does.

* `unbroken_joined`: no break in values joined by spaces;
* `ValueForm.unbroken_render`, `Spelling.unbroken_render`: none in a spelling;
* `unbroken_renderDefinition`: none in the spellings of an option.
-/

namespace CommandGrammar

namespace Descriptor

/-! ### What is written -/

/-- A text that can be the flag of a spelling with any value. -/
structure IsFlag (text : Text) : Prop where
  dash : text.head? = some '-'
  notMarker : text ≠ ['-', '-']
  noBlank : ∀ c ∈ text, Text.isBlank c = false
  noBoundary : ∀ c ∈ text, c ∉ [',', '=', '[', '<', '\x7b']

instance (text : Text) : Decidable (IsFlag text) :=
  decidable_of_iff (text.head? = some '-' ∧ text ≠ ['-', '-'] ∧ text.any Text.isBlank = false
      ∧ text.any [',', '=', '[', '<', '\x7b'].contains = false)
    ⟨fun ⟨dash, notMarker, noBlank, noBoundary⟩ => ⟨dash, notMarker,
        fun c hc => Bool.eq_false_iff.2 (List.any_eq_false.1 noBlank c hc),
        fun c hc hboundary =>
          List.any_eq_false.1 noBoundary c hc (List.contains_iff_mem.2 hboundary)⟩,
      fun h => ⟨h.dash, h.notMarker,
        List.any_eq_false.2 fun c hc => Bool.eq_false_iff.1 (h.noBlank c hc),
        List.any_eq_false.2 fun c hc hboundary =>
          h.noBoundary c hc (List.contains_iff_mem.1 hboundary)⟩⟩

/-- The descriptors of the values of a spelling: at least one. -/
structure Metavars where
  first : Text
  others : List Text
  isMetavar : ∀ text ∈ first :: others, IsMetavar text

/-- The ways in which a spelling takes its values: none at all, or some of them after a blank, after
an equals sign, after both in brackets, in brackets, or right after the flag. -/
inductive ValueForm
  | bare
  | separate (values : Metavars)
  | equals (values : Metavars)
  | optionalEquals (values : Metavars)
  | optional (values : Metavars) (noEquals : values.first.head? ≠ some '=')
  | glued (values : Metavars)
      (bracket : values.first.head? = some '<' ∨ values.first.head? = some '\x7b')

/-- One spelling of an option. -/
structure Spelling where
  flag : Text
  isFlag : IsFlag flag
  value : ValueForm

/-- The help beside a definition, after two spaces and maybe more. -/
structure Help where
  more : Nat
  text : Text
  ne_nil : text ≠ []
  trimmed : Text.trim text = text

/-- The descriptors one by one. -/
def Metavars.texts (values : Metavars) : List Text := values.first :: values.others

/-- The descriptors with a space between them. -/
def Metavars.joined (values : Metavars) : Text := Text.joinWith [' '] values.texts

namespace ValueForm

def metavars : ValueForm → List Text
  | bare => []
  | separate values | equals values | optionalEquals values | optional values _
  | glued values _ => values.texts

/-- What stands after the flag. -/
def render : ValueForm → Text
  | bare => []
  | separate values => ' ' :: values.joined
  | equals values => '=' :: values.joined
  | optionalEquals values => '[' :: '=' :: (values.joined ++ [']'])
  | optional values _ => '[' :: (values.joined ++ [']'])
  | glued values _ => values.joined

def surface (flag : Text) (value : ValueForm) : FlagSyntax :=
  let form : FlagSyntax :=
    { flag := flag
      metavars := value.metavars
      repeatable := value.metavars.any hasEllipsis }
  match value with
  | bare => form
  | separate values => { form with valueOptional := values.first.head? == some '[' }
  | equals _ => { form with style := .separateOrInline, delimiter := ['='], suffix := ['='] }
  | optionalEquals _ =>
    { form with style := .inline, delimiter := ['='], suffix := ['='], valueOptional := true }
  | optional _ _ => { form with style := .inline, suffix := [], valueOptional := true }
  | glued _ _ => { form with style := .inline, suffix := [] }

end ValueForm

def Spelling.render (s : Spelling) : Text := s.flag ++ s.value.render

def Spelling.surface (s : Spelling) : FlagSyntax := s.value.surface s.flag

def renderDefinition (spellings : List Spelling) : Text :=
  Text.joinWith [',', ' '] (spellings.map Spelling.render)

/-- A descriptor: a definition, and help if there is any. -/
def renderDescriptor (spellings : List Spelling) : Option Help → Text
  | none => renderDefinition spellings
  | some help => renderDefinition spellings ++ (Text.spaces (help.more + 2) ++ help.text)

/-! ### Texts without a break -/

/-- The texts at which a descriptor is broken, wherever they stand. -/
def breaks : List Text := [['\t'], [' ', ' '], " or -".toList]

/-- Whether a text is not broken anywhere. -/
def Unbroken (text : Text) : Prop := ∀ piece ∈ breaks, ¬ piece <:+: text

theorem IsMetavar.unbroken {text : Text} (h : IsMetavar text) : Unbroken text := by
  intro piece hpiece hpart
  simp only [breaks, List.mem_cons, List.not_mem_nil, or_false] at hpiece
  rcases hpiece with rfl | rfl | rfl
  · exact h.noTab (hpart.subset (List.mem_singleton_self _))
  · exact h.noGap hpart
  · exact h.noOr hpart

/-- A break has a blank in it. -/
theorem unbroken_of_not_blank {text : Text} (h : ∀ c ∈ text, Text.isBlank c = false) :
    Unbroken text := by
  have hbreaks : ∀ piece ∈ breaks, piece.any Text.isBlank = true := by decide
  intro piece hpiece hpart
  obtain ⟨c, hc, hblank⟩ := List.any_eq_true.1 (hbreaks piece hpiece)
  rw [h c (hpart.subset hc)] at hblank
  exact absurd hblank Bool.false_ne_true

/-- Two texts are not broken where they meet if no break begins in the first one and ends in the
second. -/
theorem Unbroken.append_of {left right : Text} (hleft : Unbroken left) (hright : Unbroken right)
    (hboundary : ∀ before after, before <:+ left → after <+: right → before ≠ [] → after ≠ [] →
      before ++ after ∉ breaks) : Unbroken (left ++ right) := by
  intro piece hpiece hpart
  rcases List.infix_append_iff.1 hpart with h | h | ⟨before, after, rfl, hbefore, hafter⟩
  · exact hleft piece hpiece h
  · exact hright piece hpiece h
  · by_cases hnone : before = []
    · rw [hnone] at hpiece
      exact hright _ hpiece hafter.isInfix
    · by_cases hnone' : after = []
      · rw [hnone', List.append_nil] at hpiece
        exact hleft _ hpiece hbefore.isInfix
      · exact hboundary before after hbefore hafter hnone hnone' hpiece

/-- A break begins with a blank, and goes on with characters of " or -". -/
theorem exists_of_break {before after : Text} (h : before ++ after ∈ breaks) (hbefore : before ≠ [])
    (hafter : after ≠ []) : ' ' ∈ before ∧ ∃ c ∈ after.head?, c ∈ " or -".toList := by
  obtain ⟨c, before, rfl⟩ := List.exists_cons_of_ne_nil hbefore
  obtain ⟨d, after, rfl⟩ := List.exists_cons_of_ne_nil hafter
  have hbreaks : ∀ piece ∈ breaks, piece.tail ≠ [] → piece.head? = some ' ' ∧
      piece.tail.all " or -".toList.contains = true := by decide
  have hmem : d ∈ before ++ d :: after := List.mem_append_right _ List.mem_cons_self
  obtain ⟨hspace, htail⟩ := hbreaks _ h (List.ne_nil_of_mem hmem)
  obtain rfl : c = ' ' := Option.some.inj hspace
  have hor := List.contains_iff_mem.1 (List.all_eq_true.1 htail d hmem)
  exact ⟨List.mem_cons_self, d, rfl, hor⟩

/-- Two texts are not broken at their boundary if the first has no blank, or if the second begins
with a character that no break goes on with. -/
theorem Unbroken.append {left right : Text} (hleft : Unbroken left) (hright : Unbroken right)
    (hboundary : ' ' ∉ left ∨ ∀ c ∈ right.head?, c ∉ " or -".toList) :
    Unbroken (left ++ right) := by
  refine hleft.append_of hright fun before after hbefore hafter hnone hnone' hpiece => ?_
  obtain ⟨hspace, c, hc, hmem⟩ := exists_of_break hpiece hnone hnone'
  rcases hboundary with hblank | hhead
  · exact hblank (hbefore.subset hspace)
  · obtain ⟨more, rfl⟩ := hafter
    refine hhead c ?_ hmem
    rw [Option.mem_def, List.head?_append_of_ne_nil _ hnone']
    exact hc

theorem Unbroken.append_left {left right : Text} (hright : Unbroken right)
    (hleft : ∀ c ∈ left, Text.isBlank c = false) : Unbroken (left ++ right) := by
  refine (unbroken_of_not_blank hleft).append hright (Or.inl fun hspace => ?_)
  have hblank := hleft ' ' hspace
  exact absurd hblank (by decide)

/-- A blank is no break unless another one or "or -" follows it. -/
theorem unbroken_space {text : Text} (h : Unbroken text) (hspace : text.head? ≠ some ' ')
    (hor : ¬ "or -".toList <+: text) : Unbroken (' ' :: text) := by
  intro piece hpiece hpart
  rcases List.infix_cons_iff.1 hpart with hstart | hpart
  · simp only [breaks, List.mem_cons, List.not_mem_nil, or_false] at hpiece
    rcases hpiece with rfl | rfl | rfl
    · exact absurd (List.cons_prefix_cons.1 hstart).1 (by decide)
    · obtain ⟨more, rfl⟩ := (List.cons_prefix_cons.1 hstart).2
      exact hspace rfl
    · exact hor (List.cons_prefix_cons.1 hstart).2
  · exact h piece hpiece hpart

/-- Before a blank a text is not broken if it ends in no blank and no dash follows. -/
theorem Unbroken.append_space {left right : Text} (hleft : Unbroken left)
    (hright : Unbroken (' ' :: right)) (hlast : left.getLast? ≠ some ' ')
    (hdash : right.head? ≠ some '-') : Unbroken (left ++ ' ' :: right) := by
  have hbreaks : ∀ piece ∈ breaks, ∀ place ≤ piece.length, (piece.drop place).head? = some ' ' →
      piece.take place = [] ∨ (piece.take place).getLast? = some ' ' ∨
        piece.drop place = [' ', '-'] := by decide
  refine hleft.append_of hright fun before after hbefore hafter hnone hnone' hpiece => ?_
  obtain ⟨c, after, rfl⟩ := List.exists_cons_of_ne_nil hnone'
  obtain ⟨rfl, hmore⟩ := List.cons_prefix_cons.1 hafter
  have hplace := hbreaks _ hpiece before.length (by rw [List.length_append]; omega)
  rw [List.take_left, List.drop_left] at hplace
  rcases hplace rfl with hempty | hblank | hor
  · exact hnone hempty
  · obtain ⟨more, rfl⟩ := hbefore
    exact hlast (by rw [List.getLast?_append_of_ne_nil _ hnone, hblank])
  · obtain ⟨more, rfl⟩ := hmore
    rw [(List.cons.inj hor).2] at hdash
    exact hdash rfl

theorem Unbroken.of_cons {c : Char} {text : Text} (h : Unbroken (c :: text)) :
    Unbroken text ∧ c ≠ '\t' ∧ (c = ' ' → text.head? ≠ some ' ') := by
  refine ⟨fun piece hpiece hpart => h piece hpiece (List.infix_cons hpart), ?_, ?_⟩
  · rintro rfl
    exact h ['\t'] (by decide) ⟨[], text, rfl⟩
  · rintro rfl hhead
    obtain ⟨more, rfl⟩ := List.head?_eq_some_iff.1 hhead
    exact h [' ', ' '] (by decide) ⟨[], more, rfl⟩

/-! ### The ends of what is written -/

/-- A text that ends in neither a blank nor a comma. -/
def EndsSolid (text : Text) : Prop :=
  ∃ before c, text = before ++ [c] ∧ Text.isBlank c = false ∧ c ≠ ','

theorem EndsSolid.append {right : Text} (h : EndsSolid right) (left : Text) :
    EndsSolid (left ++ right) := by
  obtain ⟨before, c, rfl, hblank, hcomma⟩ := h
  exact ⟨left ++ before, c, (List.append_assoc left before [c]).symm, hblank, hcomma⟩

theorem EndsSolid.ne_nil {text : Text} (h : EndsSolid text) : text ≠ [] := by
  obtain ⟨before, c, rfl, -⟩ := h
  exact List.concat_ne_nil c before

theorem EndsSolid.getLast?_ne_space {text : Text} (h : EndsSolid text) :
    text.getLast? ≠ some ' ' := by
  obtain ⟨before, c, rfl, hblank, -⟩ := h
  exact Text.getLast?_concat_ne_space hblank before

/-- Where a descriptor ends, its brackets are closed. -/
theorem RestOf.exists_concat {depth : Nat} {rest : Text} (h : RestOf depth rest)
    (hne : rest ≠ []) : ∃ before c, rest = before ++ [c] ∧ Text.isBlank c = false := by
  induction h with
  | nil => exact absurd rfl hne
  | @cons depth c rest _ houtside hrest ih =>
    by_cases hmore : rest = []
    · subst hmore
      refine ⟨[], c, rfl, ?_⟩
      by_cases hblank : Text.isBlank c = true
      · have hdepth : depthAfter depth c = depth :=
          depthAfter_of_isSeparator (by simp [isSeparator, hblank]) depth
        rw [hdepth] at hrest
        cases hrest
        exact (houtside rfl).1
      · exact Bool.eq_false_iff.2 hblank
    · obtain ⟨before, d, rfl, hblank⟩ := ih hmore
      exact ⟨c :: before, d, rfl, hblank⟩

theorem IsMetavar.endsSolid {text : Text} (h : IsMetavar text) : EndsSolid text := by
  obtain ⟨before, c, rfl, hblank⟩ := h.restOf.exists_concat h.ne_nil
  refine ⟨before, c, rfl, hblank, ?_⟩
  rintro rfl
  exact h.noComma List.getLast?_concat

/-- A descriptor does not begin with a blank. -/
theorem IsMetavar.exists_cons {text : Text} (h : IsMetavar text) :
    ∃ c rest, text = c :: rest ∧ Text.isBlank c = false ∧ c ≠ '-' := by
  obtain ⟨c, rest, rfl⟩ := List.exists_cons_of_ne_nil h.ne_nil
  refine ⟨c, rest, rfl, ?_, ?_⟩
  · cases h.restOf with
    | cons _ houtside _ => exact (houtside rfl).1
  · rintro rfl
    exact h.noDash rfl

/-! ### Descriptors joined by spaces -/

/-- What has been read of a descriptor stays its beginning. -/
theorem exists_cutMetavars_eq_cons (depth : Nat) {current : Text} (hcurrent : current ≠ [])
    (text : Text) :
    ∃ more others, cutMetavars depth current text = (current ++ more) :: others := by
  induction text generalizing depth current with
  | nil => exact ⟨[], [], by simp [cutMetavars, hcurrent]⟩
  | cons c text ih =>
    rw [cutMetavars]
    split
    · exact ⟨[], cutMetavars (depthAfter depth c) [] text, by simp [hcurrent]⟩
    · obtain ⟨more, others, hcut⟩ :=
        ih (depthAfter depth c) (List.append_ne_nil_of_left_ne_nil hcurrent [c])
      exact ⟨c :: more, others, by rw [hcut, List.append_assoc]; rfl⟩

section Joined

variable {first : Text} {others : List Text} (hfirst : IsMetavar first)

include hfirst

theorem exists_cons_joined (others : List Text) :
    ∃ c rest, Text.joinWith [' '] (first :: others) = c :: rest ∧
      Text.isBlank c = false ∧ c ≠ '-' := by
  obtain ⟨c, rest, rfl, hends⟩ := hfirst.exists_cons
  exact ⟨c, rest ++ others.flatMap (' ' :: ·), Text.joinWith_space _ _, hends⟩

/-- Were " or -" written across descriptors, the one with the dash would begin with it. -/
theorem not_or_prefix_joined (hothers : ∀ text ∈ others, IsMetavar text) :
    ¬ "or -".toList <+: Text.joinWith [' '] (first :: others) := by
  rintro ⟨more, hmore⟩
  have hsplit := splitMetavars_joined hothers hfirst
  obtain ⟨rest, later, hcut⟩ := exists_cutMetavars_eq_cons 0 (List.cons_ne_nil '-' []) more
  have hread : splitMetavars ("or -".toList ++ more)
      = "or".toList :: cutMetavars 0 ['-'] more := rfl
  rw [← hmore, hread, hcut, List.cons.injEq] at hsplit
  have hdash : IsMetavar (['-'] ++ rest) :=
    hothers _ (by rw [← hsplit.2]; exact List.mem_cons_self)
  exact hdash.noDash rfl

theorem unbroken_space_joined (hothers : ∀ text ∈ others, IsMetavar text)
    (h : Unbroken (Text.joinWith [' '] (first :: others))) :
    Unbroken (' ' :: Text.joinWith [' '] (first :: others)) := by
  obtain ⟨c, rest, hcons, hblank, -⟩ := exists_cons_joined hfirst others
  refine unbroken_space h ?_ (not_or_prefix_joined hfirst hothers)
  rw [hcons, List.head?_cons, Ne, Option.some.injEq]
  exact Text.ne_space_of_isBlank hblank

/-- Descriptors joined by spaces are not broken between two of them either. -/
theorem unbroken_joined (hothers : ∀ text ∈ others, IsMetavar text) :
    Unbroken (Text.joinWith [' '] (first :: others)) := by
  induction others generalizing first with
  | nil => exact hfirst.unbroken
  | cons second others ih =>
    obtain ⟨hsecond, hothers⟩ := List.forall_mem_cons.1 hothers
    obtain ⟨c, rest, hcons, -, hdash⟩ := exists_cons_joined hsecond others
    have hspaced := unbroken_space_joined hsecond hothers (ih hsecond hothers)
    rw [Text.joinWith_cons_cons]
    refine hfirst.unbroken.append_space hspaced hfirst.endsSolid.getLast?_ne_space ?_
    show (Text.joinWith [' '] (second :: others)).head? ≠ some '-'
    rw [hcons, List.head?_cons, Ne, Option.some.injEq]
    exact hdash

theorem endsSolid_joined (hothers : ∀ text ∈ others, IsMetavar text) :
    EndsSolid (Text.joinWith [' '] (first :: others)) := by
  induction others generalizing first with
  | nil => exact hfirst.endsSolid
  | cons second others ih =>
    obtain ⟨hsecond, hothers⟩ := List.forall_mem_cons.1 hothers
    rw [Text.joinWith_cons_cons, ← List.append_assoc]
    exact (ih hsecond hothers).append (first ++ [' '])

end Joined

namespace Metavars

variable (values : Metavars)

theorem isMetavar_first : IsMetavar values.first :=
  values.isMetavar values.first List.mem_cons_self

theorem isMetavar_others : ∀ text ∈ values.others, IsMetavar text :=
  fun text htext => values.isMetavar text (List.mem_cons_of_mem _ htext)

theorem head?_joined : values.joined.head? = values.first.head? := by
  rw [joined, texts, Text.joinWith_space, List.head?_append_of_ne_nil _ values.isMetavar_first.ne_nil]

theorem endsSolid : EndsSolid values.joined :=
  endsSolid_joined values.isMetavar_first values.isMetavar_others

theorem unbroken : Unbroken values.joined :=
  unbroken_joined values.isMetavar_first values.isMetavar_others

theorem unbroken_bracket : Unbroken (values.joined ++ [']']) := by
  have hbracket : Unbroken [']'] := unbroken_of_not_blank (List.forall_mem_singleton.2 (by decide))
  refine values.unbroken.append hbracket (Or.inr fun c hc => ?_)
  obtain rfl := Option.some.inj hc
  decide

end Metavars

/-! ### Spellings as they are written -/

namespace ValueForm

theorem unbroken_render (value : ValueForm) : Unbroken value.render := by
  cases value with
  | bare => exact unbroken_of_not_blank (List.forall_mem_nil _)
  | separate values =>
    exact unbroken_space_joined values.isMetavar_first values.isMetavar_others values.unbroken
  | equals values =>
    have hopening : ∀ c ∈ ['='], Text.isBlank c = false :=
      List.forall_mem_singleton.2 (by decide)
    exact values.unbroken.append_left hopening
  | optionalEquals values =>
    have hopening : ∀ c ∈ ['[', '='], Text.isBlank c = false :=
      List.forall_mem_cons.2 ⟨by decide, List.forall_mem_singleton.2 (by decide)⟩
    exact values.unbroken_bracket.append_left hopening
  | optional values _ =>
    have hopening : ∀ c ∈ ['['], Text.isBlank c = false :=
      List.forall_mem_singleton.2 (by decide)
    exact values.unbroken_bracket.append_left hopening
  | glued values _ => exact values.unbroken

theorem eq_nil_or_endsSolid (value : ValueForm) : value.render = [] ∨ EndsSolid value.render := by
  have hbracket : EndsSolid [']'] := ⟨[], ']', rfl, by decide, by decide⟩
  cases value with
  | bare => exact Or.inl rfl
  | separate values => exact Or.inr (values.endsSolid.append [' '])
  | equals values => exact Or.inr (values.endsSolid.append ['='])
  | optionalEquals values => exact Or.inr (hbracket.append ('[' :: '=' :: values.joined))
  | optional values _ => exact Or.inr (hbracket.append ('[' :: values.joined))
  | glued values _ => exact Or.inr values.endsSolid

end ValueForm

namespace IsFlag

variable {flag : Text} (h : IsFlag flag)

include h

theorem exists_cons : ∃ rest, flag = '-' :: rest := List.head?_eq_some_iff.1 h.dash

theorem endsSolid : EndsSolid flag := by
  obtain ⟨rest, hflag⟩ := h.exists_cons
  obtain ⟨before, c, hlast⟩ : ∃ before c, flag = before ++ [c] :=
    ⟨_, _, (List.dropLast_concat_getLast (by rw [hflag]; exact List.cons_ne_nil _ _)).symm⟩
  have hmem : c ∈ flag := by rw [hlast]; exact List.mem_concat_self
  refine ⟨before, c, hlast, h.noBlank c hmem, ?_⟩
  rintro rfl
  exact h.noBoundary ',' hmem (by decide)

end IsFlag

namespace Spelling

variable (s : Spelling)

theorem exists_cons : ∃ rest, s.render = '-' :: rest := by
  obtain ⟨rest, hflag⟩ := s.isFlag.exists_cons
  exact ⟨rest ++ s.value.render, by rw [render, hflag, List.cons_append]⟩

theorem endsSolid : EndsSolid s.render := by
  rcases s.value.eq_nil_or_endsSolid with hnil | hsolid
  · rw [render, hnil, List.append_nil]
    exact s.isFlag.endsSolid
  · exact hsolid.append s.flag

theorem unbroken_render : Unbroken s.render :=
  s.value.unbroken_render.append_left s.isFlag.noBlank

end Spelling

/-! ### Spellings one after the other -/

/-- A spelling after another one stands after a comma and a space. -/
theorem renderDefinition_cons_cons (s t : Spelling) (others : List Spelling) :
    renderDefinition (s :: t :: others)
      = s.render ++ (',' :: ' ' :: renderDefinition (t :: others)) :=
  Text.joinWith_cons_cons [',', ' '] s.render t.render (others.map Spelling.render)

theorem exists_cons_renderDefinition (s : Spelling) (others : List Spelling) :
    ∃ rest, renderDefinition (s :: others) = '-' :: rest := by
  obtain ⟨rest, hhead⟩ := s.exists_cons
  cases others with
  | nil => exact ⟨rest, hhead⟩
  | cons t others =>
    exact ⟨rest ++ (',' :: ' ' :: renderDefinition (t :: others)),
      by rw [renderDefinition_cons_cons, hhead, List.cons_append]⟩

theorem endsSolid_renderDefinition (s : Spelling) (others : List Spelling) :
    EndsSolid (renderDefinition (s :: others)) := by
  induction others generalizing s with
  | nil => exact s.endsSolid
  | cons t others ih =>
    rw [renderDefinition_cons_cons]
    exact ((ih t).append [',', ' ']).append s.render

/-- A definition is not broken: the comma before a spelling belongs to no break. -/
theorem unbroken_renderDefinition (s : Spelling) (others : List Spelling) :
    Unbroken (renderDefinition (s :: others)) := by
  induction others generalizing s with
  | nil => exact s.unbroken_render
  | cons t others ih =>
    have hcomma : ∀ c ∈ [','], Text.isBlank c = false :=
      List.forall_mem_singleton.2 (by decide)
    obtain ⟨rest, hhead⟩ := exists_cons_renderDefinition t others
    have hspace : Unbroken (' ' :: renderDefinition (t :: others)) := by
      refine unbroken_space (ih t) ?_ ?_
      · rw [hhead, List.head?_cons]
        decide
      · rw [hhead]
        rintro ⟨more, hmore⟩
        exact absurd (List.cons.inj hmore).1 (by decide)
    rw [renderDefinition_cons_cons]
    refine s.unbroken_render.append (hspace.append_left hcomma) (Or.inr fun c hc => ?_)
    obtain rfl := Option.some.inj hc
    decide

end Descriptor

end CommandGrammar
