import CommandGrammar.Proofs.Rendering

/-!
# Descriptors read back

Reading a descriptor gives the help that was written, the spellings in their order, and for each of
them the surface form that was written. Two more boundaries have to hold besides the breaks. A
spelling ends where separators stand before a dash outside of brackets, and only the comma after it
stands so. And a flag ends at the first character that can begin a value, so it has none of these.

* `Spelling.cutSpellings_render`, `Spelling.parseSpelling_render`: one spelling among others, and by
  itself;
* `splitSpellings_renderDefinition`: the spellings of a definition;
* `splitHelp_renderDescriptor`: the definition and its help;
* `read_render`: a whole descriptor.
-/

namespace CommandGrammar

namespace Descriptor

/-! ### Values -/

namespace Metavars

variable (values : Metavars)

theorem splitMetavars_joined : splitMetavars values.joined = values.texts :=
  Descriptor.splitMetavars_joined values.isMetavar_others values.isMetavar_first

theorem cutSpellings_joined (around : Nat) (current after : Text) :
    cutSpellings around false current (values.joined ++ after)
      = cutSpellings around false (current ++ values.joined) after :=
  Descriptor.cutSpellings_joined values.isMetavar_others values.isMetavar_first around current after

/-- A closing bracket ends what an opening one has begun. -/
theorem cutSpellings_bracket (current after : Text) :
    cutSpellings 1 false current (values.joined ++ (']' :: after))
      = cutSpellings 0 false (current ++ (values.joined ++ [']'])) after := by
  rw [values.cutSpellings_joined, cutSpellings_of_not_separator (by decide), List.append_assoc]
  rfl

end Metavars

namespace ValueForm

/-- What stands after a flag begins with a character that ends the flag. -/
theorem endsFlag_of_mem_head? (value : ValueForm) :
    ∀ c ∈ value.render.head?, endsFlag c = true := by
  have hends : [' ', '=', '[', '<', '\x7b'].all endsFlag = true := by decide
  have hmem : ∀ c ∈ value.render.head?, c ∈ [' ', '=', '[', '<', '\x7b'] := by
    intro c hc
    cases value with
    | bare => exact absurd hc (Option.not_mem_none c)
    | separate values | equals values | optionalEquals values | optional values _ =>
      obtain rfl := Option.some.inj hc
      decide
    | glued values hbracket =>
      rw [render, values.head?_joined] at hc
      rcases hbracket with hbracket | hbracket
      all_goals
        rw [hbracket] at hc
        obtain rfl := Option.some.inj hc
        decide
  exact fun c hc => List.all_eq_true.1 hends c (hmem c hc)

/-- A definition is not cut in what stands after a flag. -/
theorem cutSpellings_render (value : ValueForm) (current after : Text) :
    cutSpellings 0 false current (value.render ++ after)
      = cutSpellings 0 false (current ++ value.render) after := by
  cases value with
  | bare => rw [render, List.nil_append, List.append_nil]
  | separate values =>
    have hspaced : ' ' :: values.joined = values.texts.flatMap (' ' :: ·) := by
      rw [Metavars.joined, Metavars.texts, Text.joinWith_space, List.flatMap_cons, List.cons_append]
    rw [render, hspaced]
    exact cutSpellings_spaced values.isMetavar 0 current after
  | equals values =>
    rw [render, List.cons_append, cutSpellings_of_not_separator (by decide)]
    show cutSpellings 0 false (current ++ ['=']) (values.joined ++ after) = _
    rw [values.cutSpellings_joined, List.append_assoc]
    rfl
  | optionalEquals values =>
    rw [render, List.cons_append, List.cons_append, List.append_assoc,
      cutSpellings_of_not_separator (by decide), cutSpellings_of_not_separator (by decide)]
    show cutSpellings 1 false (current ++ ['['] ++ ['=']) (values.joined ++ (']' :: after)) = _
    rw [values.cutSpellings_bracket, List.append_assoc, List.append_assoc]
    rfl
  | optional values _ =>
    rw [render, List.cons_append, List.append_assoc, cutSpellings_of_not_separator (by decide)]
    show cutSpellings 1 false (current ++ ['[']) (values.joined ++ (']' :: after)) = _
    rw [values.cutSpellings_bracket, List.append_assoc]
    rfl
  | glued values _ => exact values.cutSpellings_joined 0 current after

/-- What stands after a flag says how it takes its values. -/
theorem flagSyntax?_render (value : ValueForm) (flag : Text) :
    flagSyntax? flag value.render = some (value.surface flag) := by
  cases value with
  | bare => rfl
  | separate values =>
    have hspace : splitMetavars (' ' :: values.joined) = values.texts := values.splitMetavars_joined
    rw [render, flagSyntax?, if_neg (by decide), hspace]
    · rfl
    all_goals
      intros
      contradiction
  | equals values =>
    rw [render, flagSyntax?, values.splitMetavars_joined]
    rfl
  | optionalEquals values =>
    rw [render, flagSyntax?, Text.dropSuffix?_eq_some_iff.2 rfl, Option.map_some,
      values.splitMetavars_joined]
    rfl
  | optional values hequals =>
    rw [render, flagSyntax?, Text.dropSuffix?_eq_some_iff.2 rfl, Option.map_some,
      values.splitMetavars_joined]
    · rfl
    · intro inner hinner
      have hhead : (values.joined ++ [']']).head? = some '=' := by rw [hinner]; rfl
      rw [List.head?_append_of_ne_nil _ values.endsSolid.ne_nil, values.head?_joined] at hhead
      exact hequals hhead
  | glued values hbracket =>
    have hsplit := values.splitMetavars_joined
    rw [← values.head?_joined] at hbracket
    rw [render]
    rcases hbracket with hbracket | hbracket
    all_goals
      obtain ⟨rest, hjoined⟩ := List.head?_eq_some_iff.1 hbracket
      rw [hjoined] at hsplit ⊢
      rw [flagSyntax?, if_pos (by decide), hsplit]
      · rfl
      all_goals
        intros
        contradiction

end ValueForm

/-! ### One spelling by itself -/

namespace IsFlag

variable {flag : Text} (h : IsFlag flag)

include h

theorem endsFlag_of_mem {c : Char} (hc : c ∈ flag) : endsFlag c = false := by
  have hends : " \t=[<\x7b".toList.all
      (fun c => Text.isBlank c || [',', '=', '[', '<', '\x7b'].contains c) = true := by decide
  cases hend : endsFlag c with
  | false => rfl
  | true =>
    rw [endsFlag, List.contains_iff_mem] at hend
    rcases Bool.or_eq_true_iff.1 (List.all_eq_true.1 hends c hend) with hblank | hboundary
    · rw [h.noBlank c hc] at hblank
      exact hblank.symm
    · exact absurd (List.contains_iff_mem.1 hboundary) (h.noBoundary c hc)

/-- A definition is not cut in a flag. A closing bracket there has nothing to close. -/
theorem cutSpellings_flag (current after : Text) :
    cutSpellings 0 false current (flag ++ after)
      = cutSpellings 0 false (current ++ flag) after := by
  have hseparator : ∀ c ∈ flag, isSeparator c = false := by
    intro c hc
    have hcomma : c ≠ ',' := by
      rintro rfl
      exact h.noBoundary ',' hc (by decide)
    rw [isSeparator, h.noBlank c hc, Bool.or_false, beq_eq_false_iff_ne]
    exact hcomma
  have hdepth : ∀ c ∈ flag, depthAfter 0 c = 0 := by
    intro c hc
    rw [depthAfter_eq, if_neg, Nat.zero_sub, ite_self]
    intro hopening
    refine h.noBoundary c hc ?_
    simp only [isOpening, Bool.or_eq_true, beq_iff_eq] at hopening
    rcases hopening with (rfl | rfl) | rfl <;> decide
  clear h
  induction flag generalizing current with
  | nil => rw [List.nil_append, List.append_nil]
  | cons c flag ih =>
    obtain ⟨hseparator, hseparators⟩ := List.forall_mem_cons.1 hseparator
    obtain ⟨hdepth, hdepths⟩ := List.forall_mem_cons.1 hdepth
    rw [List.cons_append, cutSpellings_of_not_separator hseparator, hdepth,
      ih _ hseparators hdepths, List.append_assoc]
    rfl

end IsFlag

namespace Spelling

variable (s : Spelling)

theorem trim_render : Text.trim s.render = s.render := by
  obtain ⟨rest, hhead⟩ := s.exists_cons
  obtain ⟨before, c, hlast, hblank, -⟩ := s.endsSolid
  exact Text.trim_eq_self hhead (by decide) hlast hblank

theorem cutSpellings_render (current after : Text) :
    cutSpellings 0 false current (s.render ++ after)
      = cutSpellings 0 false (current ++ s.render) after := by
  rw [render, List.append_assoc, s.isFlag.cutSpellings_flag, s.value.cutSpellings_render,
    List.append_assoc]

/-- The flag ends where its values begin. -/
theorem splitFlag_render : splitFlag s.render = (s.flag, s.value.render) := by
  obtain ⟨rest, hflag⟩ := s.isFlag.exists_cons
  have hrest : ∀ c ∈ rest, (!endsFlag c) = true := by
    intro c hc
    rw [s.isFlag.endsFlag_of_mem (by rw [hflag]; exact List.mem_cons_of_mem _ hc), Bool.not_false]
  have hvalue : ∀ c ∈ s.value.render.head?, (!endsFlag c) = false := by
    intro c hc
    rw [s.value.endsFlag_of_mem_head? c hc, Bool.not_true]
  obtain ⟨htake, hdrop⟩ := Text.takeWhile_dropWhile_append hrest hvalue
  rw [render, hflag, List.cons_append, splitFlag, htake, hdrop]

/-- A flag with a value in brackets is not negatable, since "--" is no flag. -/
theorem expandNegatable_render : expandNegatable s.render = [s.render] := by
  cases hdrop : Text.dropPrefix? "--[no-]".toList s.render with
  | none => rw [expandNegatable, hdrop]
  | some rest =>
    have hsplit := s.splitFlag_render
    rw [Text.dropPrefix?_eq_some_iff.1 hdrop] at hsplit
    have hflag : s.flag = ['-', '-'] := (Prod.mk.inj hsplit).1.symm
    exact absurd hflag s.isFlag.notMarker

theorem spelling?_render : spelling? s.render = [s.render] := by
  obtain ⟨rest, hhead⟩ := s.exists_cons
  rw [spelling?, s.trim_render, hhead]
  rfl

/-- **A spelling by itself is read as it was written.** -/
theorem parseSpelling_render : parseSpelling s.render = .ok s.surface := by
  obtain ⟨rest, hhead⟩ := s.exists_cons
  obtain ⟨before, c, hlast, -, hcomma⟩ := s.endsSolid
  have hkeep : Text.dropWhileEnd (· == ',') s.render = s.render := by
    rw [hlast]
    exact Text.dropWhileEnd_concat_of_neg (p := (· == ',')) (beq_eq_false_iff_ne.2 hcomma) before
  have hnonempty : s.render.isEmpty = false := by rw [hhead]; rfl
  unfold parseSpelling
  rw [s.trim_render, hkeep]
  dsimp only
  rw [hnonempty, if_neg Bool.false_ne_true, s.splitFlag_render]
  dsimp only
  rw [s.value.flagSyntax?_render s.flag]
  rfl

end Spelling

/-! ### Spellings one after the other -/

/-- **A definition is cut before each spelling but the first one.** -/
theorem cutSpellings_renderDefinition (s : Spelling) (others : List Spelling) :
    cutSpellings 0 false [] (renderDefinition (s :: others))
      = (s :: others).map Spelling.render := by
  induction others generalizing s with
  | nil =>
    have hall := s.cutSpellings_render [] []
    rw [List.append_nil, List.nil_append] at hall
    show cutSpellings 0 false [] s.render = [s.render]
    rw [hall]
    exact s.spelling?_render
  | cons t others ih =>
    obtain ⟨rest, hhead⟩ := exists_cons_renderDefinition t others
    obtain ⟨rest', hhead'⟩ := s.exists_cons
    have hfull : Text.isAllBlank s.render = false := by rw [hhead']; rfl
    have hcut : cutSpellings 0 false s.render (',' :: ' ' :: renderDefinition (t :: others))
        = spelling? s.render ++ cutSpellings 0 true [] (' ' :: renderDefinition (t :: others)) := by
      have hdash : (' ' :: renderDefinition (t :: others)).dropWhile isSeparator
          = renderDefinition (t :: others) := by
        rw [hhead]
        rfl
      rw [cutSpellings, if_neg (by simp), hdash, hhead]
      dsimp only
      rw [if_pos (by decide), hfull, if_neg Bool.false_ne_true]
      rfl
    have hskip : cutSpellings 0 true [] (' ' :: renderDefinition (t :: others))
        = cutSpellings 0 false [] (renderDefinition (t :: others)) := by
      rw [hhead]
      rfl
    rw [renderDefinition_cons_cons, s.cutSpellings_render, List.nil_append, hcut, hskip, ih t,
      s.spelling?_render]
    rfl

/-- **A definition is read spelling by spelling**, in the order in which they were written. -/
theorem splitSpellings_renderDefinition (s : Spelling) (others : List Spelling) :
    splitSpellings (renderDefinition (s :: others)) = (s :: others).map Spelling.render := by
  have hor : ¬ " or -".toList <:+: renderDefinition (s :: others) :=
    unbroken_renderDefinition s others _ (by decide)
  rw [splitSpellings, Text.replaceAll_of_not_infix hor, cutSpellings_renderDefinition,
    List.flatMap_map]
  simp only [Spelling.expandNegatable_render]
  exact List.map_eq_flatMap.symm

/-! ### Definition and help -/

theorem columnBreak?_cons {c : Char} {rest : Text} (htab : c ≠ '\t')
    (hgap : c = ' ' → rest.head? ≠ some ' ') :
    columnBreak? (c :: rest)
      = (columnBreak? rest).map fun (left, right) => (c :: left, right) := by
  rw [columnBreak?]
  · exact htab
  · rintro more rfl rfl
    exact hgap rfl rfl

/-- A definition goes on to the first gap. -/
theorem columnBreak?_gap {text : Text} (h : Unbroken text) (hlast : text.getLast? ≠ some ' ')
    (rest : Text) :
    columnBreak? (text ++ (' ' :: ' ' :: rest)) = some (text, rest.dropWhile (· == ' ')) := by
  induction text with
  | nil => rfl
  | cons c text ih =>
    obtain ⟨hunbroken, htab, hgap⟩ := h.of_cons
    by_cases hnil : text = []
    · subst hnil
      have hc : c = ' ' → (' ' :: ' ' :: rest).head? ≠ some ' ' := by
        rintro rfl
        exact absurd rfl hlast
      rw [List.singleton_append, columnBreak?_cons htab hc]
      rfl
    · have hlast' : text.getLast? ≠ some ' ' := by
        rwa [List.getLast?_cons_of_ne_nil hnil] at hlast
      have hgap' : c = ' ' → (text ++ (' ' :: ' ' :: rest)).head? ≠ some ' ' := by
        rwa [List.head?_append_of_ne_nil _ hnil]
      rw [List.cons_append, columnBreak?_cons htab hgap', ih hunbroken hlast']
      rfl

theorem columnBreak?_of_unbroken {text : Text} (h : Unbroken text) : columnBreak? text = none := by
  induction text with
  | nil => rfl
  | cons c text ih =>
    obtain ⟨hunbroken, htab, hgap⟩ := h.of_cons
    rw [columnBreak?_cons htab hgap, ih hunbroken]
    rfl

/-- The gap before the help ends where the help begins. -/
theorem Help.dropWhile_space (help : Help) :
    (Text.spaces help.more ++ help.text).dropWhile (· == ' ') = help.text := by
  obtain ⟨⟨c, rest, htext, hblank⟩, -⟩ := Text.exists_ends_of_trim help.ne_nil help.trimmed
  refine Text.dropWhile_spaces help.more ?_
  rw [htext]
  rintro ⟨⟩
  exact absurd hblank (by decide)

theorem trim_renderDescriptor (s : Spelling) (others : List Spelling) (help : Option Help) :
    Text.trim (renderDescriptor (s :: others) help) = renderDescriptor (s :: others) help := by
  obtain ⟨rest, hhead⟩ := exists_cons_renderDefinition s others
  cases help with
  | none =>
    obtain ⟨before, c, hlast, hblank, -⟩ := endsSolid_renderDefinition s others
    exact Text.trim_eq_self hhead (by decide) hlast hblank
  | some help =>
    obtain ⟨-, before, c, hlast, hblank⟩ := Text.exists_ends_of_trim help.ne_nil help.trimmed
    have hfirst : renderDescriptor (s :: others) (some help)
        = '-' :: (rest ++ (Text.spaces (help.more + 2) ++ help.text)) := by
      rw [renderDescriptor, hhead, List.cons_append]
    have hend : renderDescriptor (s :: others) (some help)
        = renderDefinition (s :: others) ++ (Text.spaces (help.more + 2) ++ before) ++ [c] := by
      rw [renderDescriptor, hlast, List.append_assoc, List.append_assoc]
    exact Text.trim_eq_self hfirst (by decide) hend hblank

/-- **The help is what stands after the gap.** -/
theorem splitHelp_renderDescriptor (s : Spelling) (others : List Spelling) (help : Option Help) :
    splitHelp (renderDescriptor (s :: others) help)
      = (renderDefinition (s :: others), help.map Help.text) := by
  have hunbroken := unbroken_renderDefinition s others
  rw [splitHelp, trim_renderDescriptor]
  cases help with
  | none =>
    have hnone : columnBreak? (renderDescriptor (s :: others) none) = none :=
      columnBreak?_of_unbroken hunbroken
    rw [hnone]
    rfl
  | some help =>
    have hbreak : columnBreak? (renderDescriptor (s :: others) (some help))
        = some (renderDefinition (s :: others), help.text) := by
      have hlast := (endsSolid_renderDefinition s others).getLast?_ne_space
      have hgap := columnBreak?_gap hunbroken hlast (Text.spaces help.more ++ help.text)
      rwa [help.dropWhile_space] at hgap
    have htrim : Text.trim (renderDefinition (s :: others)) = renderDefinition (s :: others) :=
      trim_renderDescriptor s others none
    have hnonempty : help.text.isEmpty = false := List.isEmpty_eq_false_iff.2 help.ne_nil
    rw [hbreak]
    dsimp only
    rw [htrim, help.trimmed, hnonempty, if_neg Bool.false_ne_true]
    rfl

/-- **A descriptor is read back as it was written**: its help, its spellings in their order, and of
each of them the flag, the values in their order and how it takes them. -/
theorem read_render (first : Spelling) (others : List Spelling) (help : Option Help) :
    let descriptor := renderDescriptor (first :: others) help
    let spellings := splitSpellings (splitHelp descriptor).1
    (splitHelp descriptor).2 = help.map Help.text ∧
      spellings = (first :: others).map Spelling.render ∧
      spellings.mapM parseSpelling = .ok ((first :: others).map Spelling.surface) := by
  intro descriptor spellings
  have hhelp : splitHelp descriptor = (renderDefinition (first :: others), help.map Help.text) :=
    splitHelp_renderDescriptor first others help
  have hspellings : spellings = (first :: others).map Spelling.render := by
    show splitSpellings (splitHelp descriptor).1 = _
    rw [hhelp, splitSpellings_renderDefinition]
  refine ⟨congrArg Prod.snd hhelp, hspellings, ?_⟩
  rw [hspellings]
  generalize first :: others = written
  induction written with
  | nil => rfl
  | cons s written ih =>
    rw [List.map_cons, List.mapM_cons, s.parseSpelling_render, ih]
    rfl

/-- A spelling with two values after it. -/
def shortOutput : Spelling where
  flag := "-o".toList
  isFlag := by decide
  value := .separate ⟨"FILE".toList, ["[MODE]".toList], by decide +kernel⟩

/-- A spelling with a value in brackets, which may be given again. -/
def longOutput : Spelling where
  flag := "--output".toList
  isFlag := by decide
  value := .optionalEquals ⟨"FILE,...".toList, [], by decide +kernel⟩

theorem read_render_output :
    let descriptor := "-o FILE [MODE], --output[=FILE,...]  Write to FILE, not here".toList
    (splitHelp descriptor).2 = some "Write to FILE, not here".toList ∧
      (splitSpellings (splitHelp descriptor).1).mapM parseSpelling = .ok
        [{ flag := "-o".toList, metavars := ["FILE".toList, "[MODE]".toList] },
          { flag := "--output".toList, style := .inline, delimiter := ['='], suffix := ['='],
            valueOptional := true, metavars := ["FILE,...".toList], repeatable := true }] := by
  intro descriptor
  have hread := read_render shortOutput [longOutput]
    (some ⟨0, "Write to FILE, not here".toList, by decide, by decide⟩)
  have hwritten : renderDescriptor [shortOutput, longOutput]
      (some ⟨0, "Write to FILE, not here".toList, by decide, by decide⟩) = descriptor := by decide
  have hsurface : [shortOutput, longOutput].map Spelling.surface
      = [{ flag := "-o".toList, metavars := ["FILE".toList, "[MODE]".toList] },
          { flag := "--output".toList, style := .inline, delimiter := ['='], suffix := ['='],
            valueOptional := true, metavars := ["FILE,...".toList], repeatable := true }] := by
    decide
  rw [hwritten, hsurface] at hread
  exact ⟨hread.1, hread.2.2⟩

end Descriptor

end CommandGrammar
