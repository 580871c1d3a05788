import Mathlib.Data.List.Chain
import Reckoner.Proofs.Words

/-!
# Runs and candidates

The runs of a text are its longest parts without a space.  `Runs` says which texts they are, without
cutting the text: between two runs there are spaces, and there may be spaces at both ends.  The
words of a query are its runs (`runs_iff`).

A list of runs joined with single spaces is a normal form.  It is tidy, without a space at an end
or next to another one (`tidy_join`), and its runs are those it was joined from (`words_join`).
Each candidate is such a text.  So the candidates of a candidate are it and those behind it in the
list (`candidates_of_getElem?`), and the candidates of a query are known from its runs and the
other way round (`candidates_inj`).
-/

namespace Reckoner

open Text (join)

/-! ## Runs -/

/-- The longest parts of a text without a space, in order. -/
inductive Runs : Text → List Text → Prop
  | nil : Runs [] []
  | space {t : Text} {ws : List Text} : Runs t ws → Runs (' ' :: t) ws
  | run {w t : Text} {ws : List Text} : w ≠ [] → ' ' ∉ w → (∀ c, t.head? = some c → c = ' ') →
      Runs t ws → Runs (w ++ t) (w :: ws)

theorem exists_runs (t : Text) : ∃ ws, Runs t ws := by
  induction t with
  | nil => exact ⟨[], .nil⟩
  | cons c t ih =>
    obtain ⟨ws, h⟩ := ih
    by_cases hc : ' ' = c
    · exact ⟨ws, hc ▸ h.space⟩
    · -- the character goes in front of the first run if the text starts with one
      have hstart (hhead : ∀ d, t.head? = some d → d = ' ') : Runs (c :: t) ([c] :: ws) :=
        .run (List.cons_ne_nil c []) (by simpa using hc) hhead h
      cases h with
      | nil => exact ⟨_, hstart (by simp)⟩
      | space _ => exact ⟨_, hstart (by simp)⟩
      | @run w t ws _ hspace hhead h =>
        exact ⟨(c :: w) :: ws, .run (List.cons_ne_nil c w) (by simp [hc, hspace]) hhead h⟩

theorem words_of_not_mem {w : Text} (hne : w ≠ []) (hspace : ' ' ∉ w) : words w = [w] := by
  have hruns : ∀ v ∈ [w], v ≠ [] ∧ ' ' ∉ v := by simp [hne, hspace]
  exact words_join hruns

theorem Runs.words_eq {t : Text} {ws : List Text} (h : Runs t ws) : words t = ws := by
  induction h with
  | nil => rfl
  | space _ ih => rw [words_space, ih]
  | @run w t ws hne hspace hhead _ ih =>
    cases t with
    | nil =>
      obtain rfl : ws = [] := ih.symm
      rw [List.append_nil, words_of_not_mem hne hspace]
    | cons c t =>
      obtain rfl : c = ' ' := hhead c rfl
      rw [words_append, words_of_not_mem hne hspace, ← ih, words_space]
      rfl

/-- The words of a text are its runs, and it has no other ones. -/
theorem runs_iff {t : Text} {ws : List Text} : Runs t ws ↔ words t = ws := by
  constructor
  · exact Runs.words_eq
  · rintro rfl
    obtain ⟨ws, h⟩ := exists_runs t
    rwa [h.words_eq]

theorem of_mem_words {q w : Text} (h : w ∈ words q) : w ≠ [] ∧ ' ' ∉ w := by
  obtain ⟨hmem, hne⟩ := List.mem_filter.1 h
  exact ⟨of_decide_eq_true hne, Text.not_mem_of_mem_split hmem⟩

theorem words_eq_nil_iff {q : Text} : words q = [] ↔ ∀ c ∈ q, c = ' ' := by
  rw [← runs_iff]
  constructor
  · intro h
    generalize hws : ([] : List Text) = ws at h
    induction h with
    | nil => simp
    | space _ ih => simpa using ih hws
    | run _ _ _ _ _ => cases hws
  · intro h
    induction q with
    | nil => exact .nil
    | cons c q ih =>
      obtain ⟨rfl, hq⟩ := List.forall_mem_cons.1 h
      exact .space (ih hq)

/-! ## Tidy texts -/

/-- A text that begins and ends with a character other than a space, and has no two spaces next to
each other. -/
structure Tidy (t : Text) : Prop where
  nonempty : t ≠ []
  head : t.head? ≠ some ' '
  last : t.getLast? ≠ some ' '
  single : ¬ [' ', ' '] <:+: t

theorem tidy_of_not_mem {w : Text} (hne : w ≠ []) (hspace : ' ' ∉ w) : Tidy w where
  nonempty := hne
  head h := hspace (List.mem_of_head? h)
  last h := hspace (List.mem_of_getLast? h)
  single h := hspace (h.subset List.mem_cons_self)

theorem Tidy.cons {w t : Text} (hne : w ≠ []) (hspace : ' ' ∉ w) (h : Tidy t) :
    Tidy (w ++ ' ' :: t) where
  nonempty := by simp
  head hhead := by
    rw [List.head?_append_of_ne_nil _ hne] at hhead
    exact hspace (List.mem_of_head? hhead)
  last hlast := by
    rw [List.getLast?_append_cons, List.getLast?_cons_of_ne_nil h.nonempty] at hlast
    exact h.last hlast
  single hpair := by
    have hfront : ¬ [' ', ' '] <+: ' ' :: t := by
      intro hfront
      obtain ⟨-, hfront⟩ := List.cons_prefix_cons.1 hfront
      exact h.head (List.head?_eq_some_iff.2 ⟨_, (List.prefix_iff_eq_append.1 hfront).symm⟩)
    rcases List.infix_append_iff.1 hpair with hpair | hpair | ⟨l, r, hlr, hl, hr⟩
    · exact hspace (hpair.subset List.mem_cons_self)
    · rcases List.infix_cons_iff.1 hpair with hpair | hpair
      · exact hfront hpair
      · exact h.single hpair
    · cases l with
      | nil => exact hfront (hlr ▸ hr)
      | cons c l =>
        obtain ⟨rfl, -⟩ := List.cons.inj hlr
        exact hspace (hl.subset List.mem_cons_self)

/-- Runs with single spaces between them are tidy. -/
theorem tidy_join {ws : List Text} (hne : ws ≠ []) (h : ∀ w ∈ ws, w ≠ [] ∧ ' ' ∉ w) :
    Tidy (join ' ' ws) := by
  induction ws with
  | nil => exact absurd rfl hne
  | cons w ws ih =>
    obtain ⟨⟨hw, hspace⟩, hws⟩ := List.forall_mem_cons.1 h
    cases ws with
    | nil => exact tidy_of_not_mem hw hspace
    | cons next ws => exact .cons hw hspace (ih (List.cons_ne_nil _ _) hws)

/-! ## The list of candidates -/

theorem candidates_eq_nil_iff {q : Text} : candidates q = [] ↔ ∀ c ∈ q, c = ' ' := by
  rw [← words_eq_nil_iff, ← List.length_eq_zero_iff, candidates, length_candidatesOf,
    List.length_eq_zero_iff]

/-- A candidate is the runs from one of them on. -/
theorem getElem?_candidatesOf (ws : List Text) (i : Nat) :
    (candidatesOf ws)[i]? = if i < ws.length then some (join ' ' (ws.drop i)) else none := by
  induction ws generalizing i with
  | nil => rfl
  | cons w ws ih =>
    rw [candidatesOf_cons]
    cases i with
    | zero => simp
    | succ i => simp [ih]

theorem candidatesOf_drop (ws : List Text) (i : Nat) :
    candidatesOf (ws.drop i) = (candidatesOf ws).drop i := by
  induction ws generalizing i with
  | nil => simp
  | cons w ws ih =>
    cases i with
    | zero => rfl
    | succ i => rw [candidatesOf_cons, List.drop_succ_cons, List.drop_succ_cons, ih]

/-- Each candidate is a run, a space and the next candidate. -/
theorem isChain_candidatesOf {ws : List Text} (h : ∀ w ∈ ws, w ≠ [] ∧ ' ' ∉ w) :
    (candidatesOf ws).IsChain fun longer shorter =>
      ∃ w, longer = w ++ ' ' :: shorter ∧ w ≠ [] ∧ ' ' ∉ w := by
  induction ws with
  | nil => exact .nil
  | cons w ws ih =>
    obtain ⟨hw, hws⟩ := List.forall_mem_cons.1 h
    cases ws with
    | nil => exact .singleton _
    | cons next ws =>
      have hchain := ih hws
      rw [candidatesOf_cons next ws] at hchain
      rw [candidatesOf_cons, candidatesOf_cons]
      exact .cons_cons ⟨w, rfl, hw⟩ hchain

/-- The candidates become strictly shorter. -/
theorem pairwise_length_candidates (q : Text) :
    (candidates q).Pairwise fun longer shorter => shorter.length < longer.length := by
  have hchain := isChain_candidatesOf fun w hw => of_mem_words (q := q) hw
  have hlength : (candidatesOf (words q)).IsChain fun longer shorter =>
      shorter.length < longer.length := by
    refine hchain.imp fun longer shorter => ?_
    rintro ⟨w, rfl, -⟩
    simp only [List.length_append, List.length_cons]
    omega
  have htrans : Trans (fun longer shorter : Text => shorter.length < longer.length)
      (fun longer shorter : Text => shorter.length < longer.length)
      (fun longer shorter : Text => shorter.length < longer.length) :=
    ⟨fun hlt hlt' => Nat.lt_trans hlt' hlt⟩
  exact List.isChain_iff_pairwise.1 hlength

theorem nodup_candidates (q : Text) : (candidates q).Nodup :=
  (pairwise_length_candidates q).imp fun hlt heq => absurd hlt (by simp [heq])

theorem tidy_of_mem_candidates {q c : Text} (h : c ∈ candidates q) : Tidy c := by
  obtain ⟨i, hi⟩ := List.getElem?_of_mem h
  rw [candidates, getElem?_candidatesOf] at hi
  split at hi
  · next hlt =>
    cases hi
    refine tidy_join (fun hnil => ?_) fun w hw => of_mem_words (List.mem_of_mem_drop hw)
    exact absurd (List.drop_eq_nil_iff.1 hnil) (Nat.not_le.2 hlt)
  · cases hi

/-- The candidates of a candidate are it and those behind it. -/
theorem candidates_of_getElem? {q c : Text} {i : Nat} (h : (candidates q)[i]? = some c) :
    candidates c = (candidates q).drop i := by
  rw [candidates, getElem?_candidatesOf] at h
  split at h
  · cases h
    rw [candidates, words_join fun w hw => of_mem_words (List.mem_of_mem_drop hw),
      candidatesOf_drop]
    rfl
  · cases h

/-- The words of a query are those of its first candidate. -/
theorem words_head?_candidates (q : Text) : (candidates q).head?.elim [] words = words q := by
  rw [candidates]
  cases hq : words q with
  | nil => rfl
  | cons w ws =>
    have hwords : ∀ v ∈ w :: ws, v ≠ [] ∧ ' ' ∉ v := hq ▸ fun v => of_mem_words
    rw [head?_candidatesOf _ (List.cons_ne_nil w ws), Option.elim_some, words_join hwords]

theorem candidates_inj {q r : Text} : candidates q = candidates r ↔ words q = words r := by
  constructor
  · intro h
    rw [← words_head?_candidates q, h, words_head?_candidates]
  · intro h
    rw [candidates, candidates, h]

/-- The candidates of any query, by its runs.  There are none exactly if it consists of spaces, and
otherwise there are as many as runs.  Each of them is a non-empty text without a space at an end and
without two spaces next to each other: the runs from one of them on, joined with single spaces.
They become strictly shorter, and so are different, and each is what stands behind a space of the
one before it.

Deriving candidates from a candidate gives it and those after it.  Another query has the same
candidates exactly if it has the same runs. -/
theorem candidates_of_runs (q : Text) :
    ∃ ws, (∀ vs, Runs q vs ↔ vs = ws) ∧
      (candidates q = [] ↔ ∀ c ∈ q, c = ' ') ∧
      (candidates q).length = ws.length ∧
      (∀ i < ws.length, (candidates q)[i]? = some (join ' ' (ws.drop i))) ∧
      (∀ c ∈ candidates q, c ≠ [] ∧ c.head? ≠ some ' ' ∧ c.getLast? ≠ some ' ' ∧
        ¬ [' ', ' '] <:+: c) ∧
      (candidates q).Pairwise (fun longer shorter => shorter.length < longer.length) ∧
      (candidates q).Nodup ∧
      (candidates q).IsChain (fun longer shorter => ∃ w, longer = w ++ ' ' :: shorter) ∧
      (∀ i c, (candidates q)[i]? = some c → candidates c = (candidates q).drop i) ∧
      ∀ r, candidates q = candidates r ↔ Runs r ws := by
  have hwords : ∀ w ∈ words q, w ≠ [] ∧ ' ' ∉ w := fun w => of_mem_words
  refine ⟨words q, fun vs => ?_, candidates_eq_nil_iff, length_candidatesOf _, fun i hi => ?_,
    fun c hc => ?_, pairwise_length_candidates q, nodup_candidates q, ?_,
    fun i c => candidates_of_getElem?, fun r => ?_⟩
  · rw [runs_iff, eq_comm]
  · rw [candidates, getElem?_candidatesOf, if_pos hi]
  · have htidy := tidy_of_mem_candidates hc
    exact ⟨htidy.nonempty, htidy.head, htidy.last, htidy.single⟩
  · refine (isChain_candidatesOf hwords).imp fun longer shorter => ?_
    rintro ⟨w, heq, -⟩
    exact ⟨w, heq⟩
  · rw [candidates_inj, runs_iff, eq_comm]

end Reckoner
