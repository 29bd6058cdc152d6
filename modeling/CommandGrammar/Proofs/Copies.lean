import CommandGrammar.Help.Desk
import CommandGrammar.Proofs.Expiry

/-!
# Copies of pages do not show

A desk that keeps copies hands out the pages themselves, also that there is none. A client can tell
only by the requests that reach the pages: a request does so just if no earlier one for the same
page did within the lifetime of a copy. What is kept of one kind of page, or of one program, never
answers for another.

* `Agrees`: what the copies hold, told by the calls so far alone;
* `Agrees.ask`, `Agrees.wait`: one visit answers the page and keeps copies and calls together;
* `exists_visitAll`: so does a sequence of visits;
* `copies_transparent`: what a client sees of the copies.
-/

namespace CommandGrammar

namespace Cache.Ledger

variable {κ ν : Type} [DecidableEq κ]

/-- A key without a value has, once it is written, the value for the lifetime of this write. -/
theorem live_write_self {l : Ledger κ ν} {key : κ} (hnone : l.live l.now key = none)
    {max lifetime : Duration} {value found : ν} {i : Instant} (hi : l.now ≤ i) :
    (l.write max key value lifetime).live i key = some found ↔
      i < l.now + min lifetime max ∧ found = value := by
  by_cases hzero : min lifetime max = 0
  · -- nothing is written, and what has expired stays so
    have hwrite : l.write max key value lifetime = l := if_pos hzero
    rw [hwrite, l.live_eq_none_of_le hnone hi, hzero, Int.natCast_zero, Int.add_zero]
    constructor
    · intro h
      exact absurd h (by simp)
    · intro h
      exact absurd h.1 (Int.not_lt.2 hi)
  · rw [live_eq_some_iff, last?_write_self hzero]
    constructor
    · rintro ⟨w, hw, hvalue, hlive⟩
      obtain rfl := Option.some.inj hw
      exact ⟨hlive, hvalue.symm⟩
    · rintro ⟨hlive, hvalue⟩
      exact ⟨_, rfl, hvalue.symm, hlive⟩

theorem live_write_of_ne {max : Duration} {key other : κ} (hne : other ≠ key) (value : ν)
    (lifetime : Duration) (l : Ledger κ ν) (i : Instant) :
    (l.write max key value lifetime).live i other = l.live i other := by
  unfold live
  rw [last?_write_of_ne hne]

end Cache.Ledger

namespace HelpDesk

/-! ### Visits to a desk -/

/-- A request for a page, or some time before the next one. -/
inductive Visit
  | ask (kind : PageKind) (program : Text)
  | wait (d : Duration)

/-- A request, what it was answered, and whether it reached the pages. -/
structure Call where
  time : Instant
  kind : PageKind
  program : Text
  page : Option Text
  reached : Bool
deriving DecidableEq

/-- The requests among some visits, and when they are made. -/
def schedule : Instant → List Visit → List (Instant × PageKind × Text)
  | _, [] => []
  | now, .ask kind program :: visits => (now, kind, program) :: schedule now visits
  | now, .wait d :: visits => schedule (now + d) visits

/-- Whether the clock reaches the end of every wait, and from every request on that of a copy. -/
def InRange (life : Duration) : Instant → List Visit → Prop
  | _, [] => True
  | now, .ask _ _ :: visits => now.Reaches life ∧ InRange life now visits
  | now, .wait d :: visits => now.Reaches d ∧ InRange life (now + d) visits

instance decidableInRange (life : Duration) :
    ∀ (now : Instant) (visits : List Visit), Decidable (InRange life now visits)
  | _, [] => .isTrue trivial
  | now, .ask _ _ :: visits =>
    have := decidableInRange life now visits
    inferInstanceAs (Decidable (_ ∧ InRange life now visits))
  | now, .wait d :: visits =>
    have := decidableInRange life (now + d) visits
    inferInstanceAs (Decidable (_ ∧ InRange life (now + d) visits))

/-- The calls of one visit, with the time and the desk after it. A request that reaches the pages
is remembered. -/
def visit : Visit → Instant × HelpDesk → Option (List Call × Instant × HelpDesk)
  | .ask kind program, (now, d) =>
    (d.ask now kind program).map fun (page, d') =>
      ([⟨now, kind, program, page, decide (d'.asked ≠ d.asked)⟩], now, d')
  | .wait duration, (now, d) => (now.later? duration).map fun later => ([], later, d)

/-- The calls of some visits, with the time and the desk after them. -/
def visitAll : List Visit → Instant × HelpDesk → Option (List Call × Instant × HelpDesk)
  | [], state => some ([], state)
  | v :: visits, state =>
    (visit v state).bind fun (calls, state) =>
      (visitAll visits state).map fun (later, state) => (calls ++ later, state)

/-- A desk that keeps copies of some pages and has none yet. -/
def keeping (pages : Pages) (lifetime max : Duration) : HelpDesk :=
  { pages := pages, kept := some { lifetime := lifetime, copies := .empty max } }

/-! ### What the copies hold -/

/-- Whether one of some calls reached a page so late that a copy of it still counts. -/
def Lasting (life : Duration) (calls : List Call) (i : Instant) (kind : PageKind)
    (program : Text) : Prop :=
  ∃ c ∈ calls, c.reached = true ∧ c.kind = kind ∧ c.program = program ∧ i < c.time + life

def reachedPages (calls : List Call) : List (PageKind × Text) :=
  (calls.filter Call.reached).map fun c => (c.kind, c.program)

theorem lasting_concat_iff {life : Duration} {calls : List Call} {c : Call} {i : Instant}
    {kind : PageKind} {program : Text} :
    Lasting life (calls ++ [c]) i kind program ↔
      Lasting life calls i kind program ∨
        (c.reached = true ∧ c.kind = kind ∧ c.program = program ∧ i < c.time + life) := by
  unfold Lasting
  simp only [List.mem_append, List.mem_singleton, or_and_right, exists_or, exists_eq_left]

theorem reachedPages_concat (calls : List Call) (c : Call) :
    reachedPages (calls ++ [c])
      = reachedPages calls ++ if c.reached then [(c.kind, c.program)] else [] := by
  unfold reachedPages
  rw [List.filter_append, List.map_append]
  cases hreached : c.reached <;> simp [hreached]

/-- Whether a ledger of copies has, from its time on, just the pages that some calls left. -/
def Told (pages : Pages) (life : Duration) (calls : List Call)
    (l : Cache.Ledger (Text × PageKind) (Option Text)) : Prop :=
  ∀ i kind program page, l.now ≤ i →
    (l.live i (program, kind) = some page ↔
      Lasting life calls i kind program ∧ page = pages kind program)

variable {pages : Pages}

section Told

variable {life : Duration} {calls : List Call} {l : Cache.Ledger (Text × PageKind) (Option Text)}
  (h : Told pages life calls l)

include h

theorem Told.page_eq {kind : PageKind} {program : Text} {page : Option Text}
    (hlive : l.live l.now (program, kind) = some page) :
    Lasting life calls l.now kind program ∧ page = pages kind program :=
  (h l.now kind program page (Int.le_refl _)).1 hlive

theorem Told.not_lasting {kind : PageKind} {program : Text}
    (hlive : l.live l.now (program, kind) = none) :
    ¬ Lasting life calls l.now kind program := by
  intro hlasting
  rw [(h l.now kind program _ (Int.le_refl _)).2 ⟨hlasting, rfl⟩] at hlive
  exact absurd hlive (by simp)

theorem Told.wait (d : Duration) : Told pages life calls { l with now := l.now + d } :=
  fun i kind program page hi => h i kind program page (Int.le_trans (l.now.le_add d) hi)

/-- A call that does not reach the pages leaves the copies as they are. -/
theorem Told.unreached {c : Call} (hc : c.reached = false) : Told pages life (calls ++ [c]) l := by
  intro i kind program page hi
  rw [lasting_concat_iff, hc, h i kind program page hi]
  simp

/-- A call that reaches the pages leaves a copy of its page, and no other. -/
theorem Told.reached {max lifetime : Duration} (hlife : life = min lifetime max) {c : Call}
    (htime : c.time = l.now) (hreached : c.reached = true)
    (hnone : l.live l.now (c.program, c.kind) = none) :
    Told pages life (calls ++ [c])
      (l.write max (c.program, c.kind) (pages c.kind c.program) lifetime) := by
  intro i kind program page hi
  rw [Cache.Ledger.now_write] at hi
  rw [lasting_concat_iff, htime]
  by_cases hkey : (program, kind) = (c.program, c.kind)
  · obtain ⟨rfl, rfl⟩ := Prod.mk.inj hkey
    -- the copies had nothing for this page, so only the new call can last
    have hbefore : ¬ Lasting life calls i c.kind c.program := by
      rintro ⟨c', hc', hreached', hkind, hprogram, hlasts⟩
      exact h.not_lasting hnone
        ⟨c', hc', hreached', hkind, hprogram, Int.lt_of_le_of_lt hi hlasts⟩
    rw [Cache.Ledger.live_write_self hnone hi, hlife]
    simp [hlife ▸ hbefore, hreached]
  · have hother : ¬ (c.kind = kind ∧ c.program = program ∧ i < l.now + life) := by
      rintro ⟨rfl, rfl, -⟩
      exact hkey rfl
    rw [Cache.Ledger.live_write_of_ne hkey, h i kind program page hi]
    simp [hother]

end Told

/-- The calls so far tell all about a desk: which pages it was asked for, and which of them it has
copies of. -/
structure Agrees (pages : Pages) (lifetime max : Duration) (now : Instant) (calls : List Call)
    (d : HelpDesk) : Prop where
  pages_eq : d.pages = pages
  asked_eq : d.asked = reachedPages calls
  exists_kept : ∃ k l, d.kept = some k ∧ k.lifetime = lifetime ∧ l.now = now ∧
    Cache.Refines max l k.copies ∧ Told pages (min lifetime max) calls l

theorem agrees_keeping (pages : Pages) (lifetime max : Duration) (start : Instant) :
    Agrees pages lifetime max start [] (keeping pages lifetime max) where
  pages_eq := rfl
  asked_eq := rfl
  exists_kept := by
    refine ⟨_, { now := start }, rfl, rfl, rfl, Cache.refines_empty max start, ?_⟩
    intro i kind program page _
    constructor
    · intro h
      exact absurd h (by simp [Cache.Ledger.live, Cache.Ledger.last?])
    · rintro ⟨⟨c, hc, -⟩, -⟩
      exact absurd hc List.not_mem_nil

/-! ### Visits and copies -/

/-- What a desk hands out while its copies and a ledger are together: the copy that counts, or else
the page, of which it then has a copy. -/
theorem ask_kept {d : HelpDesk} {k : PageCopies} (hkept : d.kept = some k) {max : Duration}
    {l : Cache.Ledger (Text × PageKind) (Option Text)} (h : Cache.Refines max l k.copies)
    (hfits : l.now.Reaches (min k.lifetime max)) (kind : PageKind) (program : Text) :
    ∃ copies,
      d.ask l.now kind program = some (match l.live l.now (program, kind) with
        | some page => (page, { d with kept := some { k with copies := copies } })
        | none => (d.pages kind program, { d with
            kept := some { k with copies := copies }, asked := d.asked ++ [(kind, program)] })) ∧
      Cache.Refines max
        (l.enter max (.getOrPut (program, kind) (d.pages kind program) k.lifetime)) copies := by
  have hgive := h.getOrPut? (program, kind) hfits (fetch kind program) d
  rw [h.answers (program, kind) l.now (Int.le_refl _)] at hgive
  unfold HelpDesk.ask Cache.Ledger.enter
  rw [hkept]
  dsimp only
  rw [hgive]
  cases hlive : l.live l.now (program, kind) with
  | some page => exact ⟨_, rfl, h.get (program, kind)⟩
  | none => exact ⟨_, rfl, (h.get (program, kind)).store _ _ _⟩

variable {lifetime max : Duration} {now : Instant} {calls : List Call} {d : HelpDesk}

/-- A request is answered with the page, and reaches it just if no earlier call lasts. -/
theorem Agrees.ask (h : Agrees pages lifetime max now calls d)
    (hfits : now.Reaches (min lifetime max)) (kind : PageKind) (program : Text) :
    ∃ reached d', visit (.ask kind program) (now, d)
        = some ([⟨now, kind, program, pages kind program, reached⟩], now, d') ∧
      (reached = true ↔ ¬ Lasting (min lifetime max) calls now kind program) ∧
      Agrees pages lifetime max now
        (calls ++ [⟨now, kind, program, pages kind program, reached⟩]) d' := by
  obtain ⟨rfl, hasked, k, l, hkept, rfl, rfl, hrefines, htold⟩ := h
  obtain ⟨copies, hask, hcopies⟩ := ask_kept hkept hrefines hfits kind program
  cases hlive : l.live l.now (program, kind) with
  | some page =>
    obtain ⟨hlasting, rfl⟩ := htold.page_eq hlive
    rw [Cache.Ledger.enter, hlive] at hcopies
    rw [hlive] at hask
    refine ⟨false, { d with kept := some { k with copies := copies } }, ?_, by simp [hlasting],
      rfl, ?_, _, l, rfl, rfl, rfl, hcopies, htold.unreached rfl⟩
    · rw [visit, hask]
      simp
    · rw [reachedPages_concat]
      exact hasked.trans (List.append_nil _).symm
  | none =>
    have hlasting := htold.not_lasting hlive
    rw [Cache.Ledger.enter, hlive] at hcopies
    rw [hlive] at hask
    refine ⟨true, { d with
        kept := some { k with copies := copies }, asked := d.asked ++ [(kind, program)] }, ?_,
      by simp [hlasting], rfl, ?_, _, _, rfl, rfl, Cache.Ledger.now_write .., hcopies,
      htold.reached rfl rfl rfl hlive⟩
    · rw [visit, hask]
      simp
    · rw [reachedPages_concat]
      exact congrArg (· ++ [(kind, program)]) hasked

theorem Agrees.wait (h : Agrees pages lifetime max now calls d) (duration : Duration) :
    Agrees pages lifetime max (now + duration) calls d := by
  obtain ⟨hpages, hasked, k, l, hkept, hlifetime, rfl, hrefines, htold⟩ := h
  exact ⟨hpages, hasked, k, _, hkept, hlifetime, rfl, hrefines.wait duration, htold.wait duration⟩

/-- Visits are answered as they come: every call has the page, and reaches it just if none of those
before it lasts. -/
structure Answered (pages : Pages) (life : Duration) (before calls : List Call) : Prop where
  page_eq : ∀ c ∈ calls, c.page = pages c.kind c.program
  reached_iff : ∀ earlier c later, calls = earlier ++ c :: later →
    (c.reached = true ↔ ¬ Lasting life (before ++ earlier) c.time c.kind c.program)

theorem Answered.nil (pages : Pages) (life : Duration) (before : List Call) :
    Answered pages life before [] where
  page_eq := List.forall_mem_nil _
  reached_iff := by
    intro earlier c later h
    exact absurd h (by simp)

theorem Answered.cons {life : Duration} {before : List Call} {c : Call}
    (hpage : c.page = pages c.kind c.program)
    (hreached : c.reached = true ↔ ¬ Lasting life before c.time c.kind c.program)
    (h : Answered pages life (before ++ [c]) calls) : Answered pages life before (c :: calls) where
  page_eq := List.forall_mem_cons.2 ⟨hpage, h.page_eq⟩
  reached_iff := by
    intro earlier c' later hsplit
    cases earlier with
    | nil =>
      obtain ⟨rfl, -⟩ := List.cons.inj hsplit
      rwa [List.append_nil]
    | cons first earlier =>
      obtain ⟨rfl, hrest⟩ := List.cons.inj hsplit
      rw [List.append_cons]
      exact h.reached_iff earlier c' later hrest

/-- Every sequence of visits is answered, and keeps copies and calls together. -/
theorem exists_visitAll (visits : List Visit) (h : Agrees pages lifetime max now calls d)
    (hrange : InRange (min lifetime max) now visits) :
    ∃ more later d', visitAll visits (now, d) = some (more, later, d') ∧
      more.map (fun c => (c.time, c.kind, c.program)) = schedule now visits ∧
      Answered pages (min lifetime max) calls more ∧
      Agrees pages lifetime max later (calls ++ more) d' := by
  induction visits generalizing now calls d with
  | nil => exact ⟨[], now, d, rfl, rfl, .nil .., by rwa [List.append_nil]⟩
  | cons v visits ih =>
    cases v with
    | ask kind program =>
      obtain ⟨reached, d₁, hvisit, hreached, h₁⟩ := h.ask hrange.1 kind program
      obtain ⟨more, later, d₂, hall, hschedule, hanswered, h₂⟩ := ih h₁ hrange.2
      refine ⟨_ :: more, later, d₂, ?_, ?_, hanswered.cons rfl hreached, ?_⟩
      · rw [visitAll, hvisit]
        dsimp only [Option.bind_some]
        rw [hall]
        rfl
      · exact congrArg (_ :: ·) hschedule
      · rwa [List.append_cons]
    | wait duration =>
      obtain ⟨more, later, d₂, hall, hschedule, hanswered, h₂⟩ := ih (h.wait duration) hrange.2
      refine ⟨more, later, d₂, ?_, hschedule, hanswered, h₂⟩
      rw [visitAll, visit, Instant.later?_of_reaches hrange.1]
      dsimp only [Option.map_some, Option.bind_some]
      rw [hall]
      rfl

/-- **Copies of pages do not show.** Whatever pages there are, however long copies are kept, and
whenever help pages and manual pages of any programs are asked for, a desk that keeps copies hands
out the pages themselves, also that there is none. A request reaches the pages just if no earlier
request for the same kind of page of the same program reached them so late that the lifetime of a
copy, cut to that of the cache, is not over; and the desk remembers just the requests that did. -/
theorem copies_transparent (pages : Pages) (lifetime max : Duration) (start : Instant)
    (visits : List Visit) (hrange : InRange (min lifetime max) start visits) :
    ∃ calls now d, visitAll visits (start, keeping pages lifetime max) = some (calls, now, d) ∧
      calls.map (fun c => (c.time, c.kind, c.program)) = schedule start visits ∧
      (∀ c ∈ calls, c.page = pages c.kind c.program) ∧
      (∀ (earlier : List Call) (c : Call) (later : List Call), calls = earlier ++ c :: later →
        (c.reached = true ↔ ¬ ∃ c' ∈ earlier, c'.reached = true ∧ c'.kind = c.kind ∧
          c'.program = c.program ∧ c.time < c'.time + min lifetime max)) ∧
      d.asked = (calls.filter Call.reached).map fun c => (c.kind, c.program) := by
  obtain ⟨calls, now, d, hall, hschedule, hanswered, hagrees⟩ :=
    exists_visitAll visits (agrees_keeping pages lifetime max start) hrange
  exact ⟨calls, now, d, hall, hschedule, hanswered.page_eq, hanswered.reached_iff,
    hagrees.asked_eq⟩

def samplePages : Pages
  | .help, program => if program = ['a'] then some ['u', 's', 'e'] else none
  | .manual, _ => none

/-- Both kinds of pages of one program, a program without any, and all of it again while the copies
count, at the moment when the first ones do not, and after all are over. -/
def sampleVisits : List Visit :=
  [.ask .help ['a'], .ask .manual ['a'], .wait 2, .ask .help ['b'], .ask .help ['a'], .wait 3,
    .ask .help ['a'], .ask .help ['b'], .ask .manual ['a'], .wait 9, .ask .help ['b']]

theorem copies_transparent_sample :
    InRange (min 8 5) 7 sampleVisits ∧
      ∃ calls now d, visitAll sampleVisits (7, keeping samplePages 8 5) = some (calls, now, d) ∧
        (∀ c ∈ calls, c.page = samplePages c.kind c.program) ∧
        calls.map Call.reached = [true, true, true, false, true, false, true, true] ∧
        d.asked.length = 6 := by
  have hrange : InRange (min 8 5) 7 sampleVisits := by decide
  obtain ⟨calls, now, d, hall, -, hpage, -, hasked⟩ :=
    copies_transparent samplePages 8 5 7 sampleVisits hrange
  have hrun : (visitAll sampleVisits (7, keeping samplePages 8 5)).map
      (fun result => result.1.map Call.reached)
        = some [true, true, true, false, true, false, true, true] := by decide
  rw [hall] at hrun
  have hreached : calls.map Call.reached
      = [true, true, true, false, true, false, true, true] := Option.some.inj hrun
  have hcount : (calls.filter Call.reached).length = (calls.map Call.reached).countP id := by
    rw [List.countP_map, List.countP_eq_length_filter]
    rfl
  refine ⟨hrange, calls, now, d, hall, hpage, hreached, ?_⟩
  rw [hasked, List.length_map, hcount, hreached]
  rfl

end HelpDesk

end CommandGrammar
