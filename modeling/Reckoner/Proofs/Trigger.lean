import Reckoner.Trigger

/-!
# The query of a trigger

`lastPart` scans a text from its end.  `EndsInQuery t q` says the same without a scan: `t` is
`q` and a final `=`, after nothing or after another `=`, and `q` holds no `=`.

The two agree: a text that ends in `=` ends in a query (`exists_endsInQuery`), and its trigger
covers that query (`atEnd?_of_endsInQuery`).
-/

namespace Reckoner

/-- A text ends in a query and the `=` after it. -/
def EndsInQuery (t q : Text) : Prop :=
  ∃ u, t = u ++ q ++ ['='] ∧ '=' ∉ q ∧ (u = [] ∨ u.getLast? = some '=')

/-! ## The last part -/

theorem lastPart_append {u q : Text} (hu : u = [] ∨ u.getLast? = some '=') (hq : '=' ∉ q) :
    lastPart (u ++ q) = q := by
  have hall : ∀ c ∈ q.reverse, decide (c ≠ '=') = true := by
    intro c hc
    have hmem : c ∈ q := List.mem_reverse.1 hc
    simpa using fun h : c = '=' => hq (h ▸ hmem)
  unfold lastPart
  rw [List.reverse_append, List.takeWhile_append_of_pos hall]
  rcases hu with rfl | hu
  · simp
  · obtain ⟨v, rfl⟩ := List.getLast?_eq_some_iff.1 hu
    simp

theorem eq_not_mem_lastPart (t : Text) : '=' ∉ lastPart t := by
  intro h
  have hmem : '=' ∈ t.reverse.takeWhile (· ≠ '=') := List.mem_reverse.1 h
  simpa using List.all_eq_true.1 List.all_takeWhile _ hmem

/-- What stands before the last part is nothing, or ends in `=`. -/
theorem exists_append_lastPart (t : Text) :
    ∃ u, t = u ++ lastPart t ∧ (u = [] ∨ u.getLast? = some '=') := by
  refine ⟨(t.reverse.dropWhile (· ≠ '=')).reverse, ?_, ?_⟩
  · unfold lastPart
    rw [← List.reverse_append, List.takeWhile_append_dropWhile, List.reverse_reverse]
  · have hhead := List.head?_dropWhile_not (fun c => decide (c ≠ '=')) t.reverse
    cases hd : t.reverse.dropWhile (· ≠ '=') with
    | nil => exact .inl rfl
    | cons c rest =>
      rw [hd] at hhead
      right
      simpa using hhead

/-! ## The trigger -/

theorem atEnd?_of_endsInQuery {t q : Text} (h : EndsInQuery t q) :
    Span.atEnd? t = some ⟨t.length - q.length - 1, t.length, q⟩ := by
  obtain ⟨u, rfl, hq, hu⟩ := h
  have hlast : (u ++ q ++ ['=']).getLast? = some '=' := by simp
  have hdrop : (u ++ q ++ ['=']).dropLast = u ++ q := by simp
  simp only [Span.atEnd?, hlast, hdrop, lastPart_append hu hq, if_true]

theorem exists_endsInQuery {t : Text} (h : t.getLast? = some '=') : ∃ q, EndsInQuery t q := by
  obtain ⟨v, rfl⟩ := List.getLast?_eq_some_iff.1 h
  obtain ⟨u, hv, hu⟩ := exists_append_lastPart v
  exact ⟨lastPart v, u, by rw [← hv], eq_not_mem_lastPart v, hu⟩

theorem getLast?_of_endsInQuery {t q : Text} (h : EndsInQuery t q) : t.getLast? = some '=' := by
  obtain ⟨u, rfl, -, -⟩ := h
  simp

theorem EndsInQuery.eq_not_mem {t q : Text} (h : EndsInQuery t q) : '=' ∉ q := by
  obtain ⟨u, -, hq, -⟩ := h
  exact hq

theorem EndsInQuery.length_lt {t q : Text} (h : EndsInQuery t q) : q.length < t.length := by
  obtain ⟨u, rfl, -, -⟩ := h
  simp only [List.length_append, List.length_singleton]
  omega

/-- The trigger of a text covers the query that the text ends in. -/
theorem atEnd?_inv {t : Text} {s : Span} (h : Span.atEnd? t = some s) :
    ∃ q, EndsInQuery t q ∧ s = ⟨t.length - q.length - 1, t.length, q⟩ := by
  have hlast : t.getLast? = some '=' := (isSome_atEnd?_iff t).1 (h ▸ rfl)
  obtain ⟨q, hq⟩ := exists_endsInQuery hlast
  exact ⟨q, hq, Option.some.inj (h.symm.trans (atEnd?_of_endsInQuery hq))⟩

/-- Without a query at its end a text does not trigger. -/
theorem atEnd?_eq_none {t : Text} (h : ∀ q, ¬ EndsInQuery t q) : Span.atEnd? t = none := by
  have hlast : t.getLast? ≠ some '=' := fun hlast =>
    (exists_endsInQuery hlast).elim fun q hq => h q hq
  rw [Span.atEnd?, if_neg hlast]

end Reckoner
