import CommandGrammar.Proofs.Respelling

/-!
# Where readers turn back

A list of spellings can mostly go on to one end only: a run of characters that stops short leaves a
character behind with which nothing goes on. The exception is a placeholder after an equals sign. A
`<` in it is one of its characters as well as the beginning of a bracket, so a reader that has run
past it may have to turn back and read a bracket from there.

* `settled_goOn`: but for equals signs, no two ends to which a list goes on can be read;
* `behindJoined`: what stands behind the first `<` in a placeholder after an equals sign, and
  `behindJoined_isSuffix`: behind it is what the reader has tried when it turns back there;
* `readFrom?_respelled`, `reading?_respelled`: the same spellings are read before another
  description, whatever was tried in between.
-/

namespace CommandGrammar

namespace OptionLine

/-! ### Ends that cannot be read -/

/-- Whether a character can end a spelling and nothing goes on with it. -/
def isInert (c : Char) : Bool := isInk c && !"=[<\x7b".toList.contains c

/-- Whether a text begins with such a character. -/
def Inert (cs : Text) : Prop := ∃ c tail, cs = c :: tail ∧ isInert c = true

theorem isInk_of_isInert {c : Char} (h : isInert c = true) : isInk c = true :=
  (Bool.and_eq_true_iff.1 h).1

theorem ne_of_isInert {c d : Char} (hc : isInert c = true) (hd : isInert d = false) : c ≠ d := by
  rintro rfl
  exact Bool.false_ne_true (hd.symm.trans hc)

theorem Inert.readFrom?_eq_none {cs : Text} (h : Inert cs) : readFrom? cs = none := by
  obtain ⟨c, tail, rfl, hc⟩ := h
  have hgoOn : goOn (c :: tail) = [] := by
    rw [goOn_of_ne (ne_of_isInert hc (by decide)) (ne_of_isInert hc (by decide))
      (ne_of_isInert hc (by decide))]
    refine inBrackets_of_ne fun opening closing hb heq => ?_
    refine ne_of_isInert hc ?_ (Option.some.inj heq)
    cases hb <;> decide
  have hdescription : description? (c :: tail) = none := by
    rw [← Option.not_isSome_iff_eq_none]
    intro hsome
    have hblunt := (border_of_description? hsome).blunt c rfl
    exact Bool.false_ne_true (hblunt.symm.trans (isInk_of_isInert hc))
  rw [readFrom?_eq, hgoOn, hdescription]
  rfl

theorem Inert.append {cs : Text} (h : Inert cs) (rest : Text) : Inert (cs ++ rest) := by
  obtain ⟨c, tail, rfl, hc⟩ := h
  exact ⟨c, tail ++ rest, rfl, hc⟩

theorem Respelling.inert {rest : Text} {φ : Text → Text} (h : Respelling rest φ) {cs : Text}
    (hcs : Inert cs) : Inert (φ cs) := by
  obtain ⟨c, tail, rfl, hc⟩ := hcs
  exact ⟨c, φ tail, h.keep_ink (isInk_of_isInert hc) tail, hc⟩

/-! ### Ends of which one can be read -/

/-- Whether all ends but one cannot be read, whatever follows them. -/
def Settled (ends : List Text) : Prop := ∃ first, ∀ e ∈ ends, e = first ∨ Inert e

theorem settled_nil : Settled [] := ⟨[], fun _ he => nomatch he⟩

theorem settled_singleton (e : Text) : Settled [e] :=
  ⟨e, fun _ he => Or.inl (List.mem_singleton.1 he)⟩

/-- The first end that is read is read in the same way if it is the only one. -/
theorem Settled.findSome?_eq {α β : Type} {ends : List Text} (h : Settled ends)
    {f : Text → Option α} {g : Text → Option β} (hg : ∀ e, Inert e → g e = none) {a : α} {b : β}
    (hfound : ends.findSome? f = some a) (hnext : ∀ e ∈ ends, f e = some a → g e = some b) :
    ends.findSome? g = some b := by
  obtain ⟨first, hfirst⟩ := h
  have honly {e : Text} (he : e ∈ ends) {b : β} (hb : g e = some b) : e = first := by
    refine (hfirst e he).resolve_right fun hinert => ?_
    rw [hg e hinert] at hb
    exact absurd hb (Option.some_ne_none b).symm
  obtain ⟨e, he, hfe⟩ := List.exists_of_findSome?_eq_some hfound
  have hge := hnext e he hfe
  obtain ⟨b', hb'⟩ : ∃ b', ends.findSome? g = some b' := by
    rw [← Option.isSome_iff_exists, List.findSome?_isSome_iff]
    exact ⟨e, he, by rw [hge]; rfl⟩
  obtain ⟨e', he', hge'⟩ := List.exists_of_findSome?_eq_some hb'
  rw [honly he' hge', ← honly he hge, hge] at hge'
  rw [hb', hge']

theorem mem_runs {p : Char → Bool} {cs e : Text} (h : e ∈ runs p cs) :
    e = cs.dropWhile p ∨ ∃ c tail, e = c :: tail ∧ p c = true := by
  induction cs with
  | nil => exact Or.inl (List.mem_singleton.1 h)
  | cons c cs ih =>
    rw [runs] at h
    split at h
    · rename_i hc
      rw [List.dropWhile_cons_of_pos hc]
      rcases List.mem_append.1 h with h | h
      · exact ih h
      · exact Or.inr ⟨c, cs, List.mem_singleton.1 h, hc⟩
    · rename_i hc
      rw [List.dropWhile_cons_of_neg hc]
      exact Or.inl (List.mem_singleton.1 h)

theorem mem_runs_of_append {p : Char → Bool} {taken e : Text} (h : ∀ c ∈ taken, p c = true) :
    e ∈ runs p (taken ++ e) := by
  induction taken with
  | nil =>
    cases e with
    | nil => exact List.mem_singleton.2 rfl
    | cons c e =>
      show c :: e ∈ runs p (c :: e)
      rw [runs]
      split
      · exact List.mem_append_right _ (List.mem_singleton.2 rfl)
      · exact List.mem_singleton.2 rfl
  | cons c taken ih =>
    show e ∈ runs p (c :: (taken ++ e))
    rw [runs, if_pos (h c List.mem_cons_self)]
    exact List.mem_append_left _ (ih fun d hd => h d (List.mem_cons_of_mem c hd))

/-- The places at which a run stops stand in the order of what they leave. -/
theorem pairwise_runs (p : Char → Bool) (cs : Text) :
    (runs p cs).Pairwise fun e e' => e <:+ e' := by
  induction cs with
  | nil => exact List.pairwise_singleton _ _
  | cons c cs ih =>
    rw [runs]
    split
    · rw [List.pairwise_append]
      refine ⟨ih, List.pairwise_singleton _ _, fun e he e' he' => ?_⟩
      obtain ⟨taken, rfl, -⟩ := exists_of_mem_runs he
      rw [List.mem_singleton.1 he']
      exact (List.suffix_append taken e).trans (List.suffix_cons c _)
    · exact List.pairwise_singleton _ _

/-- Whether with no character of a class anything goes on. -/
def InertOnly (p : Char → Bool) : Prop := ∀ c, p c = true → isInert c = true

theorem inertOnly_of {p : Char → Bool} (hink : InkOnly p) (hequals : p '=' = false)
    (hsquare : p '[' = false) (hangle : p '<' = false) (hcurly : p '\x7b' = false) :
    InertOnly p := by
  intro c hc
  have hother : "=[<\x7b".toList.contains c = false := by
    rw [Bool.eq_false_iff, Ne, List.contains_iff_mem]
    intro hmem
    have hcases : c = '=' ∨ c = '[' ∨ c = '<' ∨ c = '\x7b' := by simpa using hmem
    rcases hcases with rfl | rfl | rfl | rfl <;> simp_all
  rw [isInert, hink c hc, hother]
  rfl

theorem settled_runs {p : Char → Bool} (hp : InertOnly p) (cs : Text) : Settled (runs p cs) :=
  ⟨cs.dropWhile p, fun _ he =>
    (mem_runs he).imp_right fun ⟨c, tail, heq, hc⟩ => ⟨c, tail, heq, hp c hc⟩⟩

theorem settled_flagBody (cs : Text) : Settled (flagBody cs) := by
  have hbody : InertOnly isFlagBody :=
    inertOnly_of inkOnly_isFlagBody (by decide) (by decide) (by decide) (by decide)
  cases cs with
  | nil => exact settled_nil
  | cons c cs =>
    rw [flagBody]
    split
    · exact settled_runs hbody cs
    · exact settled_nil

theorem settled_assigned (cs : Text) : Settled (assigned cs) := by
  have hcapitals : InertOnly (fun c => isUpper c || isDigit c || c == '_') :=
    inertOnly_of inkOnly_operand.2 (by decide) (by decide) (by decide) (by decide)
  unfold assigned
  split
  · split
    · exact settled_runs hcapitals _
    · exact settled_nil
  · exact settled_nil

theorem settled_operand (cs : Text) : Settled (operand cs) := by
  cases cs with
  | nil => exact settled_nil
  | cons c cs =>
    rw [operand]
    split
    · exact settled_assigned _
    · exact settled_nil

theorem settled_flag (cs : Text) : Settled (flag cs) := by
  unfold flag
  split
  · exact settled_flagBody _
  · exact settled_flagBody _
  · exact settled_operand _

theorem settled_bracketed (closing : Char) (cs : Text) : Settled (bracketed closing cs) := by
  unfold bracketed
  split
  · exact settled_singleton _
  · exact settled_nil

theorem settled_inBrackets (cs : Text) : Settled (inBrackets cs) := by
  unfold inBrackets
  split
  · exact settled_bracketed _ _
  · exact settled_bracketed _ _
  · exact settled_bracketed _ _
  · exact settled_nil

/-- The points of an ellipsis are characters of the run before it as well. -/
theorem mem_runs_of_mem_capitals {c : Char} {cs e : Text} (h : e ∈ capitals (c :: cs)) :
    e ∈ runs isCapital cs := by
  rw [capitals] at h
  split at h
  · obtain ⟨rest, hrest, he⟩ := List.mem_flatMap.1 h
    split at he
    · rename_i shorter hdots
      rcases List.mem_cons.1 he with rfl | he
      · obtain ⟨taken, rfl, htaken⟩ := exists_of_mem_runs hrest
        rw [Text.dropPrefix?_eq_some_iff.1 hdots, ← List.append_assoc]
        refine mem_runs_of_append (List.forall_mem_append.2 ⟨htaken, ?_⟩)
        exact List.all_eq_true.1 (by decide)
      · rw [List.mem_singleton.1 he]
        exact hrest
    · rw [List.mem_singleton.1 he]
      exact hrest
  · exact absurd h List.not_mem_nil

theorem settled_capitals (cs : Text) : Settled (capitals cs) := by
  have hcapital : InertOnly isCapital :=
    inertOnly_of inkOnly_isCapital (by decide) (by decide) (by decide) (by decide)
  cases cs with
  | nil => exact settled_nil
  | cons c cs =>
    obtain ⟨first, hfirst⟩ := settled_runs hcapital cs
    exact ⟨first, fun e he => hfirst e (mem_runs_of_mem_capitals he)⟩

theorem isLower_eq_false_of_isUpper {c : Char} (h : isUpper c = true) : isLower c = false := by
  rw [isUpper, Bool.and_eq_true, decide_eq_true_eq, decide_eq_true_eq] at h
  have hhigh : c.toNat ≤ 90 := UInt32.le_iff_toNat_le.1 h.2
  rw [isLower, Bool.and_eq_false_iff, decide_eq_false_iff_not]
  refine Or.inl fun hlow => ?_
  have hlow : 97 ≤ c.toNat := UInt32.le_iff_toNat_le.1 hlow
  omega

theorem flag_eq_nil {c : Char} {cs : Text} (hdash : c ≠ '-') (hlower : isLower c = false) :
    flag (c :: cs) = [] := by
  have hhead : (c :: cs).head? ≠ some '-' := fun heq => hdash (Option.some.inj heq)
  rw [flag_of_not_dash hhead, operand, hlower, if_neg Bool.false_ne_true]

/-- After a space stands either a placeholder in capitals or one in brackets or a flag. -/
theorem settled_space (cs : Text) : Settled (capitals cs ++ inBrackets cs ++ flag cs) := by
  cases cs with
  | nil => exact settled_nil
  | cons c cs =>
    by_cases hupper : isUpper c = true
    · have hne (d : Char) (hd : isUpper d = false) : c ≠ d := by
        rintro rfl
        exact Bool.false_ne_true (hd.symm.trans hupper)
      have hbrackets : inBrackets (c :: cs) = [] := by
        refine inBrackets_of_ne fun opening closing hb heq => ?_
        exact hne opening (by cases hb <;> decide) (Option.some.inj heq)
      rw [hbrackets, flag_eq_nil (hne '-' (by decide)) (isLower_eq_false_of_isUpper hupper),
        List.append_nil, List.append_nil]
      exact settled_capitals _
    · have hcapitals : capitals (c :: cs) = [] := by
        rw [capitals, if_neg hupper]
      rw [hcapitals, List.nil_append]
      by_cases hbracket : ∃ opening closing, Bracket opening closing ∧ c = opening
      · obtain ⟨opening, closing, hb, rfl⟩ := hbracket
        have hflag : flag (c :: cs) = [] := by cases hb <;> rfl
        rw [hflag, List.append_nil]
        exact settled_inBrackets _
      · have hbrackets : inBrackets (c :: cs) = [] :=
          inBrackets_of_ne fun opening closing hb heq =>
            hbracket ⟨opening, closing, hb, Option.some.inj heq⟩
        rw [hbrackets, List.nil_append]
        exact settled_flag _

/-- **But for equals signs, no two ends to which a list of spellings goes on can be read.** -/
theorem settled_goOn {cs : Text} (h : cs.head? ≠ some '=') : Settled (goOn cs) := by
  cases cs with
  | nil => exact settled_nil
  | cons c cs =>
    by_cases hspace : c = ' '
    · subst hspace
      by_cases hor : orWord <+: ' ' :: cs
      · obtain ⟨tail, htail⟩ := hor
        rw [← htail, goOn_or]
        exact settled_flag _
      · rw [goOn_space fun tail heq => absurd ⟨tail, by rw [heq]; rfl⟩ hor]
        exact settled_space _
    · by_cases hcomma : c = ','
      · subst hcomma
        by_cases hcs : cs.head? = some ' '
        · obtain ⟨tail, rfl⟩ := List.head?_eq_some_iff.1 hcs
          exact settled_flag tail
        · rw [goOn_comma hcs]
          exact settled_flag _
      · rw [goOn_of_ne hspace hcomma fun heq => h (congrArg some heq)]
        exact settled_inBrackets _

/-! ### Behind a joined bracket -/

/-- Whether a character stands in a placeholder after an equals sign, but begins no bracket. -/
def isPlainJoined (c : Char) : Bool := isJoined c && c != '<'

/-- What stands behind the first `<` in a placeholder after an equals sign. -/
def behindJoined : Text → Text
  | [] => []
  | c :: cs =>
    if c = '=' ∧ (cs.dropWhile isPlainJoined).head? = some '<' then
      (cs.dropWhile isPlainJoined).tail
    else behindJoined cs

example : behindJoined "--size=1<KB [or more>".toList = "KB [or more>".toList := by decide

theorem inkOnly_isPlainJoined : InkOnly isPlainJoined :=
  fun c hc => inkOnly_isJoined c (Bool.and_eq_true_iff.1 hc).1

theorem behindJoined_cons_of_ne {c : Char} (h : c ≠ '=') (cs : Text) :
    behindJoined (c :: cs) = behindJoined cs := by
  rw [behindJoined, if_neg fun hc => h hc.1]

theorem behindJoined_append {run : Text} (h : ∀ c ∈ run, c ≠ '=') (cs : Text) :
    behindJoined (run ++ cs) = behindJoined cs := by
  induction run with
  | nil => rfl
  | cons c run ih =>
    show behindJoined (c :: (run ++ cs)) = _
    rw [behindJoined_cons_of_ne (h c List.mem_cons_self),
      ih fun d hd => h d (List.mem_cons_of_mem c hd)]

theorem behindJoined_isSuffix_self (cs : Text) : behindJoined cs <:+ cs := by
  induction cs with
  | nil => exact List.suffix_rfl
  | cons c cs ih =>
    rw [behindJoined]
    split
    · exact (List.tail_suffix _).trans ((List.dropWhile_suffix _).trans (List.suffix_cons c cs))
    · exact ih.trans (List.suffix_cons c cs)

/-- What stands behind a joined bracket of an end of a text does so in the whole text. -/
theorem behindJoined_isSuffix_of_isSuffix {e cs : Text} (h : e <:+ cs) :
    behindJoined e <:+ behindJoined cs := by
  induction cs with
  | nil => rw [List.suffix_nil.1 h]
  | cons c cs ih =>
    rcases List.suffix_cons_iff.1 h with rfl | h
    · exact List.suffix_rfl
    · refine (ih h).trans ?_
      rw [behindJoined]
      split
      · rename_i hc
        obtain ⟨tail, htail⟩ := List.head?_eq_some_iff.1 hc.2
        obtain ⟨run, hrun, hplain, -⟩ := Text.exists_of_dropWhile_eq_cons htail
        rw [htail, hrun, behindJoined_append, behindJoined_cons_of_ne (by decide)]
        · exact behindJoined_isSuffix_self tail
        · rintro d hd rfl
          exact absurd (hplain '=' hd) (by decide)
      · exact List.suffix_rfl

/-- Behind a run that has passed a `<` stands nothing but what stands behind a joined bracket. -/
theorem isSuffix_behindJoined {run : Text} (h : ∀ c ∈ run, isJoined c = true) (tail : Text) :
    tail <:+ behindJoined ('=' :: (run ++ '<' :: tail)) := by
  have hdrop : ∃ rest, (run ++ '<' :: tail).dropWhile isPlainJoined = '<' :: rest ∧
      tail <:+ rest := by
    induction run with
    | nil => exact ⟨tail, rfl, List.suffix_rfl⟩
    | cons c run ih =>
      by_cases hc : c = '<'
      · subst hc
        exact ⟨run ++ '<' :: tail, rfl,
          (List.suffix_cons _ _).trans (List.suffix_append run ('<' :: tail))⟩
      · have hplain : isPlainJoined c = true := by
          rw [isPlainJoined, h c List.mem_cons_self, bne_iff_ne.2 hc]
          rfl
        show ∃ rest, (c :: (run ++ '<' :: tail)).dropWhile isPlainJoined = '<' :: rest ∧ _
        rw [List.dropWhile_cons_of_pos hplain]
        exact ih fun d hd => h d (List.mem_cons_of_mem c hd)
  obtain ⟨rest, hrest, hsuffix⟩ := hdrop
  rw [behindJoined, hrest, if_pos ⟨rfl, rfl⟩]
  exact hsuffix

/-! ### The same spellings before another description -/

theorem isInert_of_isJoined {c : Char} (hc : isJoined c = true) (hne : c ≠ '<') :
    isInert c = true := by
  have hplain : InertOnly isPlainJoined :=
    inertOnly_of inkOnly_isPlainJoined (by decide) (by decide) (by decide) (by decide)
  refine hplain c ?_
  rw [isPlainJoined, hc, bne_iff_ne.2 hne]
  rfl

/-- The places that a reader has tried before it turns back to a `<` stand behind this `<`. -/
theorem isSuffix_behindJoined_of_runs {cs b s : Text} (hs : s ∈ runs isJoined cs)
    (hb : b ∈ runs isJoined cs) (hsuffix : b <:+ s) (hne : b ≠ s) (hread : ¬ Inert s) :
    b <:+ behindJoined ('=' :: cs) := by
  obtain ⟨run, rfl, hrun⟩ := exists_of_mem_runs hs
  obtain ⟨taken, heq, htaken⟩ := exists_of_mem_runs hb
  obtain ⟨between, rfl⟩ := hsuffix
  cases between with
  | nil => exact absurd rfl hne
  | cons c between =>
    have hsplit : (run ++ c :: between) ++ b = taken ++ b := by
      rw [List.append_assoc]
      exact heq
    have hall : run ++ c :: between = taken := List.append_cancel_right hsplit
    have hc : isJoined c = true := htaken c (by rw [← hall]; simp)
    have hangle : c = '<' := by
      by_contra hangle
      exact hread ⟨c, between ++ b, rfl, isInert_of_isJoined hc hangle⟩
    subst hangle
    exact (List.suffix_append between b).trans (isSuffix_behindJoined hrun (between ++ b))

/-- **Spellings that were read up to their end are so after a change.** -/
theorem readFrom?_respelled {rest rest' : Text} {φ : Text → Text} {d : Option Text}
    (h : Respelling rest' φ) (hstop : readFrom? rest' = some ⟨rest', d⟩) {cs : Text}
    (hends : cs = [] ∨ Ends cs []) (hcs : Stable rest' (behindJoined cs)) {r : Reading}
    (hread : readFrom? (cs ++ rest) = some r) (hr : r.after = rest) :
    readFrom? (φ cs) = some ⟨rest', d⟩ := by
  induction cs using goOn_induction with
  | step cs ih =>
    rcases hends with rfl | hends
    · rw [h.nil]
      exact hstop
    · have hrest : (description? rest).isSome := by
        rw [← hr, (stop_of_readFrom? hread).2]
        rfl
      have hfound := findSome?_goOn hends hread hr
      have hclosed : ClosedAt cs rest' := by
        intro opening closing hb after hbracket hafter
        have hnil : goOn cs = [] := by
          rcases hbracket with rfl | rfl
          · exact (goOn_opening hb _).1.trans (bracketed_of_not_mem hafter)
          · exact (goOn_opening hb _).2.trans (bracketed_of_not_mem hafter)
        rw [hnil] at hfound
        exact absurd hfound (Option.some_ne_none r).symm
      have hnext (e : Text) (he : e ∈ goOn cs) (hre : readFrom? (e ++ rest) = some r) :
          readFrom? (φ e) = some ⟨rest', d⟩ :=
        have hsuffix := (ends_of_mem_goOn he).isSuffix
        ih e he (nil_or_ends_of_isSuffix (Or.inr hends) hsuffix)
          (hcs.of_isSuffix (behindJoined_isSuffix_of_isSuffix hsuffix)) hre
      have hsome : (goOn cs).findSome? (readFrom? ∘ φ) = some ⟨rest', d⟩ := by
        by_cases hequals : cs.head? = some '='
        · obtain ⟨cs, rfl⟩ := List.head?_eq_some_iff.1 hequals
          rw [goOn_equals] at hfound hnext ⊢
          obtain ⟨before, s, after, hruns, hs, hbefore⟩ := List.findSome?_eq_some_iff.1 hfound
          refine List.findSome?_eq_some_iff.2 ⟨before, s, after, hruns, ?_, fun b hb => ?_⟩
          · exact hnext s (by rw [hruns]; simp) hs
          · have horder := pairwise_runs isJoined cs
            rw [hruns, List.pairwise_append] at horder
            have hb' : b <:+ behindJoined ('=' :: cs) := by
              refine isSuffix_behindJoined_of_runs (s := s) (by rw [hruns]; simp)
                (by rw [hruns]; simp [hb]) (horder.2.2 b hb s List.mem_cons_self) ?_ ?_
              · rintro rfl
                exact absurd ((hbefore b hb).symm.trans hs) (Option.some_ne_none r).symm
              · intro hinert
                exact absurd ((hinert.append rest).readFrom?_eq_none.symm.trans hs)
                  (Option.some_ne_none r).symm
            exact h.readFrom?_eq_none hrest (hcs.of_isSuffix hb') (hbefore b hb)
        · exact (settled_goOn hequals).findSome?_eq
            (fun e he => (h.inert he).readFrom?_eq_none) hfound hnext
      rw [readFrom?_eq, h.goOn hends hclosed, List.findSome?_map, hsome]
      rfl

theorem reading?_respelled {rest rest' : Text} {φ : Text → Text} {d : Option Text}
    (h : Respelling rest' φ) (hstop : readFrom? rest' = some ⟨rest', d⟩) {cs : Text}
    (hends : Ends cs []) (hcs : Stable rest' (behindJoined cs)) {r : Reading}
    (hread : reading? (cs ++ rest) = some r) (hr : r.after = rest) :
    reading? (φ cs) = some ⟨rest', d⟩ := by
  have hrest : (description? rest).isSome := by
    rw [← hr, (stop_of_reading? hread).2]
    rfl
  have happend := respelling_append (border_of_description? hrest)
  rw [reading?_eq, happend.flag, List.findSome?_map] at hread
  rw [reading?_eq, h.flag, List.findSome?_map]
  refine (settled_flag cs).findSome?_eq (fun e he => (h.inert he).readFrom?_eq_none) hread
    fun e he hre => ?_
  have hsuffix := (ends_of_mem_flag he).isSuffix
  exact readFrom?_respelled h hstop (nil_or_ends_of_isSuffix (Or.inr hends) hsuffix)
    (hcs.of_isSuffix (behindJoined_isSuffix_of_isSuffix hsuffix)) hre hr

end OptionLine

end CommandGrammar
