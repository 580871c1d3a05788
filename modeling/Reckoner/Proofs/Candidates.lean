import Reckoner.Calculator
import Reckoner.Proofs.Words

/-!
# Resolving candidate by candidate

What a query resolves to is found on its candidates in upper case, and these are the candidates of
the query in upper case (`resolve_eq`, `resolveM_eq`).  Two things follow.

* Queries with the same upper case resolve alike, and an evaluator with effects is handed the same
  texts for both, in the same order (`resolve_congr_upper`).
* Text in front of a query adds candidates in front of those of the query (`resolve_append`).  So
  it never takes an answer away, and the lengths of runs of spaces do not matter.

Which texts an evaluator is handed is read off a recording: the evaluator is run with a list to
which every text is added (`recorded`).
-/

namespace Reckoner

open Text (join)

/-! ## Candidates in upper case -/

theorem resolve_eq {α : Type} (evaluate : Text → Option α) (query : Text) :
    resolve evaluate query = (candidates (Text.upper query)).findSome? evaluate := by
  rw [resolve, candidates_upper, List.findSome?_map]
  rfl

theorem findSomeM?_map {m : Type → Type} [Monad m] {α β γ : Type} (f : α → β)
    (g : β → m (Option γ)) (l : List α) :
    (l.map f).findSomeM? g = l.findSomeM? fun a => g (f a) := by
  induction l with
  | nil => rfl
  | cons a l ih =>
    rw [List.map_cons, List.findSomeM?, List.findSomeM?, ih]

theorem resolveM_eq {m : Type → Type} [Monad m] {α : Type} (evaluate : Text → m (Option α))
    (query : Text) :
    resolveM evaluate query = (candidates (Text.upper query)).findSomeM? evaluate := by
  rw [resolveM, candidates_upper, findSomeM?_map]

/-! ## Recordings -/

section Recording

variable {σ α : Type} (evaluate : Text → StateM σ (Option α))

/-- An evaluator that records the texts it is handed. -/
def recorded (t : Text) : StateT (List Text) (StateM σ) (Option α) := do
  modify (· ++ [t])
  evaluate t

/-- Resolving a query hands these texts to an evaluator that is in the state `s` before: they are
what is recorded, and recording changes neither the answer nor the state afterwards. -/
def Hands (query : Text) (s : σ) (texts : List Text) : Prop :=
  ((resolveM (recorded evaluate) query).run []).run s =
    ((((resolveM evaluate query).run s).1, texts), ((resolveM evaluate query).run s).2)

theorem run_cons (t : Text) (texts : List Text) (s : σ) :
    ((t :: texts).findSomeM? evaluate).run s =
      match (evaluate t).run s with
      | (some a, s') => (some a, s')
      | (none, s') => (texts.findSomeM? evaluate).run s' := by
  rw [List.findSomeM?, StateT.run_bind]
  rcases (evaluate t).run s with ⟨_ | a, s'⟩ <;> rfl

theorem run_recorded_cons (t : Text) (texts before : List Text) (s : σ) :
    (((t :: texts).findSomeM? (recorded evaluate)).run before).run s =
      match (evaluate t).run s with
      | (some a, s') => ((some a, before ++ [t]), s')
      | (none, s') => ((texts.findSomeM? (recorded evaluate)).run (before ++ [t])).run s' := by
  have hstep : ((recorded evaluate t).run before).run s =
      ((((evaluate t).run s).1, before ++ [t]), ((evaluate t).run s).2) := rfl
  rw [List.findSomeM?, StateT.run_bind, StateT.run_bind, hstep]
  rcases (evaluate t).run s with ⟨_ | a, s'⟩ <;> rfl

/-- The texts that are handed over start the list that is searched. -/
theorem run_recorded (texts before : List Text) (s : σ) :
    ∃ asked, asked <+: texts ∧
      ((texts.findSomeM? (recorded evaluate)).run before).run s =
        ((((texts.findSomeM? evaluate).run s).1, before ++ asked),
          ((texts.findSomeM? evaluate).run s).2) := by
  induction texts generalizing before s with
  | nil => exact ⟨[], List.prefix_rfl, by rw [List.append_nil]; rfl⟩
  | cons t texts ih =>
    rw [run_cons, run_recorded_cons]
    rcases (evaluate t).run s with ⟨_ | a, s'⟩
    · -- a text that is worth nothing leaves the search to the further texts
      obtain ⟨asked, hstarts, hrun⟩ := ih (before ++ [t]) s'
      refine ⟨t :: asked, List.cons_prefix_cons.2 ⟨rfl, hstarts⟩, ?_⟩
      simp only [hrun, List.append_assoc, List.singleton_append]
    · exact ⟨[t], List.cons_prefix_cons.2 ⟨rfl, List.nil_prefix⟩, rfl⟩

theorem exists_hands (query : Text) (s : σ) :
    ∃ texts, Hands evaluate query s texts ∧ texts <+: candidates (Text.upper query) := by
  obtain ⟨texts, hstarts, hrun⟩ := run_recorded evaluate (candidates (Text.upper query)) [] s
  rw [← resolveM_eq, ← resolveM_eq] at hrun
  exact ⟨texts, hrun, hstarts⟩

end Recording

/-! ## Queries with the same upper case -/

/-- Queries with the same upper case resolve alike, whatever the constants are, and an evaluator
with effects answers both alike: it is handed the same texts, which start the candidates of the
upper case.  The upper case of a query is such a query. -/
theorem resolve_congr_upper {query other : Text} (h : Text.upper query = Text.upper other) :
    (∀ c : Calculator, c.resolve query = c.resolve other) ∧
    (∀ (m : Type → Type) [Monad m] (α : Type) (evaluate : Text → m (Option α)),
      resolveM evaluate query = resolveM evaluate other) ∧
    (∀ (σ α : Type) (evaluate : Text → StateM σ (Option α)) (s : σ), ∃ texts,
      Hands evaluate query s texts ∧ Hands evaluate other s texts ∧
        texts <+: candidates (Text.upper query)) ∧
    ∀ c : Calculator, c.resolve (Text.upper query) = c.resolve query := by
  have hresolveM (m : Type → Type) [Monad m] (α : Type) (evaluate : Text → m (Option α)) :
      resolveM evaluate query = resolveM evaluate other := by
    rw [resolveM_eq, resolveM_eq, h]
  refine ⟨fun c => ?_, hresolveM, fun σ α evaluate s => ?_, fun c => ?_⟩
  · rw [Calculator.resolve, Calculator.resolve, resolve_eq, resolve_eq, h]
  · obtain ⟨texts, hands, hstarts⟩ := exists_hands evaluate query s
    refine ⟨texts, hands, ?_, hstarts⟩
    rwa [Hands, hresolveM, hresolveM] at hands
  · rw [Calculator.resolve, Calculator.resolve, resolve_eq, resolve_eq, Text.upper_upper]

/-- A ligature and a sharp s become two letters each. -/
theorem resolve_congr_upper_ligature :
    let c : Calculator := ⟨(Symbols.empty.insert "fi".toList 2).insert "ss".toList 3⟩
    Text.upper "ﬁ * ß".toList = Text.upper "FI * SS".toList ∧
      (c.resolve "ﬁ * ß".toList).map Answer.display = some "6".toList ∧
      (c.resolve "FI * SS".toList).map Answer.display = some "6".toList := by
  intro c
  have hupper : Text.upper "ﬁ * ß".toList = Text.upper "FI * SS".toList := by decide +kernel
  have hdisplay : (c.resolve "ﬁ * ß".toList).map Answer.display = some "6".toList := by
    decide +kernel
  refine ⟨hupper, hdisplay, ?_⟩
  rw [← (resolve_congr_upper hupper).1 c, hdisplay]

/-! ## Text in front of a query -/

namespace Calculator

theorem resolve_respaced (c : Calculator) {s t : Text} (h : Respaced s t) :
    c.resolve s = c.resolve t := by
  rw [resolve, resolve, Reckoner.resolve, Reckoner.resolve, candidates, candidates, h.words_eq]

/-- Text in front of a query, with a space between them, is asked for first: each end of its words
together with the words of the query.  If none of them evaluates, the query resolves as it does
alone.  So an answer is never taken away, and the lengths of runs of spaces do not matter, nor do
spaces at the start and at the end. -/
theorem resolve_append (c : Calculator) (p query : Text) :
    c.resolve (p ++ ' ' :: query) =
      ((List.range (words p).length).findSome? fun i =>
        (c.evaluate (Text.upper (join ' ' ((words p).drop i ++ words query)))).toOption).or
          (c.resolve query) ∧
    ((c.resolve query).isSome → (c.resolve (p ++ ' ' :: query)).isSome) ∧
    ∀ s t, Respaced s t → c.resolve s = c.resolve t := by
  have hresolve : c.resolve (p ++ ' ' :: query) =
      ((List.range (words p).length).findSome? fun i =>
        (c.evaluate (Text.upper (join ' ' ((words p).drop i ++ words query)))).toOption).or
          (c.resolve query) := by
    rw [resolve, Reckoner.resolve, candidates, words_append, candidatesOf_append,
      List.findSome?_append, List.findSome?_map]
    rfl
  refine ⟨hresolve, fun hsome => ?_, fun s t => c.resolve_respaced⟩
  rw [hresolve, Option.isSome_or, hsome, Bool.or_true]

/-- Words in front of a sum, and spaces before and behind it. -/
theorem resolve_append_words :
    let c : Calculator := ⟨Symbols.builtIn⟩
    (c.resolve "2 + 3".toList).isSome ∧ (c.resolve "in total:  2 + 3".toList).isSome ∧
      c.resolve " 2 +   3  ".toList = c.resolve "2 + 3".toList := by
  intro c
  have hsome : (c.resolve "2 + 3".toList).isSome := by decide +kernel
  obtain ⟨-, hkept, hspaces⟩ := c.resolve_append "in total: ".toList "2 + 3".toList
  exact ⟨hsome, hkept hsome, hspaces _ _ (respaced_iff.2 (by decide))⟩

end Calculator

end Reckoner
