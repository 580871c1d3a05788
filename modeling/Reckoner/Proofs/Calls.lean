import Reckoner.Proofs.Candidates
import Reckoner.Proofs.Runs

/-!
# The calls of an evaluator

An evaluator with effects is called for the candidates of a query one after the other, and each call
starts in the state that the one before has left.  So what an evaluator says to a text may depend on
all calls before.

`Fails` is a series of calls without a success.  A search goes through such a series in front
(`run_of_fails`), and every list is one or begins with one up to a success
(`fails_or_succeeds`).  So the calls of a resolution are known: up to the first success and that
one, or all candidates if there is none (`resolveM_calls`).
-/

namespace Reckoner

variable {σ α : Type} (evaluate : Text → StateM σ (Option α))

/-! ## Calls without a success -/

/-- Calls for texts in order, from one state to another, which all fail. -/
inductive Fails : σ → List Text → σ → Prop
  | nil (s : σ) : Fails s [] s
  | cons {s s' s'' : σ} {t : Text} {ts : List Text} : (evaluate t).run s = (none, s') →
      Fails s' ts s'' → Fails s (t :: ts) s''

variable {evaluate}

/-- A search goes on behind calls that fail. -/
theorem run_of_fails {ts : List Text} {s s' : σ} (h : Fails evaluate s ts s') (rest : List Text) :
    ((ts ++ rest).findSomeM? evaluate).run s = (rest.findSomeM? evaluate).run s' := by
  induction h with
  | nil s => rfl
  | cons hcall _ ih =>
    rw [List.cons_append, run_cons, hcall]
    exact ih

/-- With a recording it is the same, and the texts are recorded. -/
theorem run_recorded_of_fails {ts : List Text} {s s' : σ} (h : Fails evaluate s ts s')
    (rest before : List Text) :
    (((ts ++ rest).findSomeM? (recorded evaluate)).run before).run s =
      ((rest.findSomeM? (recorded evaluate)).run (before ++ ts)).run s' := by
  induction h generalizing before with
  | nil s => rw [List.append_nil, List.nil_append]
  | @cons _ _ _ t ts hcall _ ih =>
    rw [List.cons_append, run_recorded_cons, hcall, List.append_cons before t ts]
    exact ih (before ++ [t])

/-- All calls for a list of texts fail, or those up to one that succeeds. -/
theorem fails_or_succeeds (evaluate : Text → StateM σ (Option α)) (ts : List Text) (s : σ) :
    (∃ s', Fails evaluate s ts s') ∨
      ∃ front t rest s' a s'', ts = front ++ t :: rest ∧ Fails evaluate s front s' ∧
        (evaluate t).run s' = (some a, s'') := by
  induction ts generalizing s with
  | nil => exact .inl ⟨s, .nil s⟩
  | cons t ts ih =>
    rcases hcall : (evaluate t).run s with ⟨_ | a, s'⟩
    · rcases ih s' with ⟨s'', hfails⟩ | ⟨front, u, rest, s'', a, s''', rfl, hfails, hsuccess⟩
      · exact .inl ⟨s'', .cons hcall hfails⟩
      · exact .inr ⟨t :: front, u, rest, s'', a, s''', rfl, .cons hcall hfails, hsuccess⟩
    · exact .inr ⟨[], t, ts, s, a, s', rfl, .nil s, hcall⟩

/-! ## The calls of a resolution -/

/-- If all calls fail there is no answer, and every candidate is called for. -/
theorem resolveM_of_fails {query : Text} {s s' : σ}
    (h : Fails evaluate s ((candidates query).map Text.upper) s') :
    (resolveM evaluate query).run s = (none, s') ∧
      Hands evaluate query s ((candidates query).map Text.upper) := by
  have hrun := run_of_fails h []
  have hrecorded := run_recorded_of_fails h [] []
  rw [List.append_nil, ← candidates_upper, ← resolveM_eq] at hrun hrecorded
  refine ⟨hrun, ?_⟩
  rw [Hands, hrecorded, hrun, candidates_upper]
  rfl

/-- The first call that succeeds gives the answer, and is the last one. -/
theorem resolveM_of_succeeds {query t : Text} {front rest : List Text} {s s' s'' : σ} {a : α}
    (hasked : (candidates query).map Text.upper = front ++ t :: rest)
    (hfails : Fails evaluate s front s') (hsuccess : (evaluate t).run s' = (some a, s'')) :
    (resolveM evaluate query).run s = (some a, s'') ∧
      Hands evaluate query s (front ++ [t]) := by
  have hrun := run_of_fails hfails (t :: rest)
  have hrecorded := run_recorded_of_fails hfails (t :: rest) []
  rw [← hasked, ← candidates_upper, ← resolveM_eq] at hrun hrecorded
  rw [run_cons, hsuccess] at hrun
  rw [run_recorded_cons, hsuccess] at hrecorded
  refine ⟨hrun, ?_⟩
  rw [Hands, hrecorded, hrun]
  rfl

/-- There is no answer exactly if all calls fail. -/
theorem resolveM_eq_none_iff {query : Text} {s : σ} :
    ((resolveM evaluate query).run s).1 = none ↔
      ∃ s', Fails evaluate s ((candidates query).map Text.upper) s' := by
  constructor
  · intro hnone
    rcases fails_or_succeeds evaluate ((candidates query).map Text.upper) s with
      hfails | ⟨front, t, rest, s', a, s'', hasked, hfails, hsuccess⟩
    · exact hfails
    · rw [(resolveM_of_succeeds hasked hfails hsuccess).1] at hnone
      cases hnone
  · rintro ⟨s', hfails⟩
    rw [(resolveM_of_fails hfails).1]

/-- An evaluator without effects is the special case that a calculator is. -/
theorem resolveM_pure (f : Text → Option α) (query : Text) (s : σ) :
    (resolveM (fun t => (pure (f t) : StateM σ (Option α))) query).run s =
      (resolve f query, s) := by
  rw [resolveM, resolve]
  induction candidates query with
  | nil => rfl
  | cons c cs ih =>
    rw [run_cons, List.findSome?_cons]
    cases hc : f (Text.upper c) with
    | none => exact ih
    | some a => rfl

/-- The calls of a resolution, for any query and any evaluator, which may answer differently each
time.  They are made for the candidates in upper case and in order.  Either all of them fail, and
there is no answer, or the last one succeeds, all before it fail, and its answer is the one that is
given.  In both cases the state afterwards is the one that the last call has left.  So there is no
answer exactly if every candidate was called for and failed.  No text is called for twice, and none
at all exactly if the query consists of spaces.

An evaluator without effects is answered by the search that a calculator makes. -/
theorem resolveM_calls (evaluate : Text → StateM σ (Option α)) (query : Text) (s : σ) :
    let asked := (candidates query).map Text.upper
    let outcome := (resolveM evaluate query).run s
    (∃ texts, Hands evaluate query s texts ∧ texts <+: asked ∧
      ((texts = asked ∧ Fails evaluate s asked outcome.2 ∧ outcome.1 = none) ∨
        ∃ front t s' a, texts = front ++ [t] ∧ Fails evaluate s front s' ∧
          (evaluate t).run s' = (some a, outcome.2) ∧ outcome.1 = some a) ∧
      texts.Nodup ∧ (texts = [] ↔ ∀ c ∈ query, c = ' ')) ∧
    (outcome.1 = none ↔ ∃ s', Fails evaluate s asked s') ∧
    ∀ f : Text → Option α,
      (resolveM (fun t => (pure (f t) : StateM σ (Option α))) query).run s =
        (resolve f query, s) := by
  intro asked outcome
  have hnodup : asked.Nodup := by
    rw [show asked = candidates (Text.upper query) from (candidates_upper query).symm]
    exact nodup_candidates _
  have hblank : asked = [] ↔ ∀ c ∈ query, c = ' ' := by
    rw [← candidates_eq_nil_iff]
    exact List.map_eq_nil_iff
  refine ⟨?_, resolveM_eq_none_iff, fun f => resolveM_pure f query s⟩
  rcases fails_or_succeeds evaluate asked s with
    ⟨s', hfails⟩ | ⟨front, t, rest, s', a, s'', hasked, hfails, hsuccess⟩
  · obtain ⟨houtcome, hands⟩ := resolveM_of_fails hfails
    have houtcome : outcome = (none, s') := houtcome
    refine ⟨asked, hands, List.prefix_rfl, .inl ?_, hnodup, hblank⟩
    rw [houtcome]
    exact ⟨rfl, hfails, rfl⟩
  · obtain ⟨houtcome, hands⟩ := resolveM_of_succeeds hasked hfails hsuccess
    have houtcome : outcome = (some a, s'') := houtcome
    have hprefix : front ++ [t] <+: asked := ⟨rest, by rw [hasked, List.append_cons front t rest]⟩
    refine ⟨front ++ [t], hands, hprefix, .inr ⟨front, t, s', a, rfl, hfails, ?_⟩,
      hnodup.sublist hprefix.sublist, ?_⟩
    · rw [houtcome]
      exact ⟨hsuccess, rfl⟩
    · rw [← hblank, hasked]
      simp

-- An evaluator that answers at its second call, whatever the text is.
example : (resolveM (fun _ => modifyGet fun n => (if n = 1 then some n else none, n + 1) :
    Text → StateM Nat (Option Nat)) "a b c".toList).run 0 = (some 1, 2) := by
  cbv

end Reckoner
