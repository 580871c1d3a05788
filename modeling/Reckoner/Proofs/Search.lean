import Reckoner.Proofs.Trigger
import Reckoner.Text.Pattern

/-!
# Triggers as a search

The trigger at the end of a text is what a search for `Span.pattern` finds.  The search tries the
columns from the left, and the run in the pattern takes all it can.  Neither matters in the end:
the pattern matches at a column only if a query and the `=` behind it fill the text from there on
(`mem_ways_pattern`), and the leftmost such column is the one where the query that the text ends
in begins (`search?_pattern`).

`Span.Covers` says which span that is, without a search and without a scan.  A text that ends in
`=` has one such span, and any other text has none (`atEnd?_eq_some_iff`).
-/

namespace Reckoner

namespace Pattern

variable {p : Pattern} {t : Text} {w : Way}

/-! ## The ways of a pattern -/

/-- A run may take any characters of its class that a text starts with. -/
theorem mem_ways_many {p : Char → Bool} :
    w ∈ (many p).ways t ↔
      t = w.matched ++ w.rest ∧ (∀ c ∈ w.matched, p c = true) ∧ w.kept = [] := by
  show w ∈ runWays p t ↔ _
  simp only [runWays, List.mem_map, List.mem_reverse, List.mem_range, Nat.lt_succ_iff]
  constructor
  · rintro ⟨n, hn, rfl⟩
    refine ⟨(List.take_append_drop n t).symm, fun c hc => ?_, rfl⟩
    have hfront : t.take n <+: t.takeWhile p :=
      List.prefix_of_prefix_length_le (List.take_prefix n t) (List.takeWhile_prefix p)
        (Nat.le_trans (List.length_take_le n t) hn)
    exact List.all_eq_true.1 List.all_takeWhile c (hfront.subset hc)
  · rintro ⟨rfl, hall, hkept⟩
    refine ⟨w.matched.length, ?_, ?_⟩
    · rw [List.takeWhile_append_of_pos hall, List.length_append]
      exact Nat.le_add_right _ _
    · rw [List.take_left, List.drop_left, ← hkept]

theorem mem_ways_one {p : Char → Bool} :
    w ∈ (one p).ways t ↔ ∃ c r, t = c :: r ∧ p c = true ∧ w = ⟨[c], [], r⟩ := by
  cases t with
  | nil => simp [ways]
  | cons c t =>
    rw [ways]
    split
    · next hc =>
      rw [List.mem_singleton]
      refine ⟨fun hw => ⟨c, t, rfl, hc, hw⟩, ?_⟩
      rintro ⟨_, _, heq, -, rfl⟩
      cases heq
      rfl
    · next hc =>
      refine ⟨fun hw => absurd hw List.not_mem_nil, ?_⟩
      rintro ⟨_, _, heq, hd, -⟩
      cases heq
      exact absurd hd hc

theorem mem_ways_stop : w ∈ stop.ways t ↔ t = [] ∧ w = ⟨[], [], []⟩ := by
  cases t <;> simp [ways]

theorem mem_ways_group {inner : Pattern} :
    w ∈ (group inner).ways t ↔ ∃ u ∈ inner.ways t, { u with kept := u.matched } = w := by
  rw [ways, List.mem_map]

theorem mem_ways_pair {first second : Pattern} :
    w ∈ (pair first second).ways t ↔
      ∃ u ∈ first.ways t, ∃ v ∈ second.ways u.rest, u.followedBy v = w := by
  simp only [ways, List.mem_flatMap, List.mem_map]

/-! ## The leftmost match -/

theorem search?_eq_some {k : Nat} (hk : k ≤ t.length) (hw : (p.ways (t.drop k)).head? = some w)
    (hbefore : ∀ j < k, p.ways (t.drop j) = []) : p.search? t = some (k, w) := by
  induction t generalizing k with
  | nil =>
    obtain rfl : k = 0 := Nat.le_zero.1 hk
    rw [search?, show (p.ways []).head? = some w from hw]
    rfl
  | cons c t ih =>
    cases k with
    | zero => rw [search?, show (p.ways (c :: t)).head? = some w from hw]
    | succ k =>
      have hnone : p.ways (c :: t) = [] := hbefore 0 (Nat.succ_pos k)
      have hrest := ih (Nat.le_of_succ_le_succ hk) hw fun j hj => hbefore (j + 1) (by omega)
      rw [search?, hnone, hrest]
      rfl

theorem search?_eq_none (h : ∀ k, p.ways (t.drop k) = []) : p.search? t = none := by
  induction t with
  | nil => rw [search?, show p.ways [] = [] from h 0]; rfl
  | cons c t ih =>
    rw [search?, show p.ways (c :: t) = [] from h 0, ih fun k => h (k + 1)]
    rfl

end Pattern

/-! ## The pattern of a trigger -/

/-- A run of characters other than `=`, which is kept, then `=` and the end of the text. -/
def Span.pattern : Pattern := .pair (.group (.many (· ≠ '='))) (.pair (.one (· = '=')) .stop)

/-- The pattern matches where a query and the `=` behind it are the whole text, and in one way. -/
theorem mem_ways_pattern {t : Text} {w : Pattern.Way} :
    w ∈ Span.pattern.ways t ↔ ∃ q, t = q ++ ['='] ∧ '=' ∉ q ∧ w = ⟨t, q, []⟩ := by
  simp only [Span.pattern, Pattern.mem_ways_pair, Pattern.mem_ways_group, Pattern.mem_ways_many,
    Pattern.mem_ways_one, Pattern.mem_ways_stop]
  constructor
  · rintro ⟨_, ⟨u, ⟨hu, hclass, -⟩, rfl⟩, _, ⟨_, ⟨c, r, hrest, hc, rfl⟩, _, ⟨rfl, rfl⟩, rfl⟩, rfl⟩
    obtain rfl : c = '=' := of_decide_eq_true hc
    rw [show u.rest = ['='] from hrest] at hu
    refine ⟨u.matched, hu, fun hmem => ?_, ?_⟩
    · exact absurd rfl (of_decide_eq_true (hclass '=' hmem))
    · rw [hu]
      simp [Pattern.Way.followedBy]
  · rintro ⟨q, rfl, hq, rfl⟩
    refine ⟨_, ⟨⟨q, [], ['=']⟩, ⟨rfl, fun c hc => ?_, rfl⟩, rfl⟩, _,
      ⟨_, ⟨'=', [], rfl, rfl, rfl⟩, _, ⟨rfl, rfl⟩, rfl⟩, ?_⟩
    · exact decide_eq_true fun h : c = '=' => hq (h ▸ hc)
    · simp [Pattern.Way.followedBy]

theorem head?_ways_pattern {q : Text} (hq : '=' ∉ q) :
    (Span.pattern.ways (q ++ ['='])).head? = some ⟨q ++ ['='], q, []⟩ := by
  have hmem : ⟨q ++ ['='], q, []⟩ ∈ Span.pattern.ways (q ++ ['=']) :=
    mem_ways_pattern.2 ⟨q, rfl, hq, rfl⟩
  cases hways : Span.pattern.ways (q ++ ['=']) with
  | nil => rw [hways] at hmem; cases hmem
  | cons w rest =>
    obtain ⟨r, hr, -, rfl⟩ := mem_ways_pattern.1 (hways ▸ List.mem_cons_self : w ∈ _)
    rw [List.head?_cons, ← List.append_cancel_right hr]

/-- The search finds the query that a text ends in, at the column where the query begins. -/
theorem search?_pattern (t : Text) :
    Span.pattern.search? t =
      (Span.atEnd? t).map fun s => (s.start, ⟨s.query ++ ['='], s.query, []⟩) := by
  cases hs : Span.atEnd? t with
  | none =>
    refine Pattern.search?_eq_none fun k => List.eq_nil_iff_forall_not_mem.2 fun w hw => ?_
    obtain ⟨q, hq, -, -⟩ := mem_ways_pattern.1 hw
    have hlast : t.getLast? = some '=' := by
      rw [← List.take_append_drop k t, hq, ← List.append_assoc]
      simp
    rw [← isSome_atEnd?_iff, hs] at hlast
    cases hlast
  | some s =>
    obtain ⟨q, ⟨u, rfl, hq, hu⟩, rfl⟩ := atEnd?_inv hs
    have hstart : (u ++ q ++ ['=']).length - q.length - 1 = u.length := by
      simp only [List.length_append, List.length_singleton]
      omega
    simp only [hstart, Option.map_some]
    refine Pattern.search?_eq_some ?_ ?_ fun j hj => ?_
    · simp only [List.length_append]
      omega
    · rw [List.append_assoc, List.drop_left]
      exact head?_ways_pattern hq
    · -- A match further to the left would have an `=` inside its query.
      refine List.eq_nil_iff_forall_not_mem.2 fun w hw => ?_
      obtain ⟨r, hr, hmem, -⟩ := mem_ways_pattern.1 hw
      rw [List.append_assoc, List.drop_append_of_le_length (Nat.le_of_lt hj), ← List.append_assoc]
        at hr
      have hlast : (u.drop j).getLast? = some '=' := by
        rw [List.getLast?_drop, if_neg (Nat.not_le.2 hj)]
        exact hu.resolve_left fun hnil => by simp [hnil] at hj
      rw [← List.append_cancel_right hr] at hmem
      exact hmem (List.mem_append_left q (List.mem_of_getLast? hlast))

-- A line break is a character like any other, and the end is not in front of it.
example : Span.pattern.search? "a=\nb=".toList = some (2, ⟨"\nb=".toList, "\nb".toList, []⟩) ∧
    Span.pattern.search? "a=\n".toList = none := by
  decide

/-! ## The one span -/

/-- A span that ends with a text, whose columns hold its query and an `=`, without another `=` in
the query and with nothing or an `=` in front of it. -/
structure Span.Covers (s : Span) (t : Text) : Prop where
  /-- It ends where the text ends. -/
  stop_eq : s.stop = t.length
  /-- Its columns hold the query and the `=`. -/
  slice_eq : (t.drop s.start).take (s.stop - s.start) = s.query ++ ['=']
  /-- The query holds no `=`. -/
  not_mem : '=' ∉ s.query
  /-- The query begins with the text, or behind an `=`. -/
  start_eq : s.start = 0 ∨ t[s.start - 1]? = some '='

/-- The text from the start of a span on. -/
theorem Span.Covers.drop_eq {s : Span} {t : Text} (h : s.Covers t) :
    t.drop s.start = s.query ++ ['='] := by
  rw [← h.slice_eq, h.stop_eq, ← List.length_drop, List.take_length]

theorem Span.Covers.length_eq {s : Span} {t : Text} (h : s.Covers t) :
    s.start + s.query.length + 1 = s.stop := by
  have hlength := congrArg List.length h.drop_eq
  rw [List.length_drop, List.length_append, List.length_singleton, ← h.stop_eq] at hlength
  omega

theorem Span.Covers.endsInQuery {s : Span} {t : Text} (h : s.Covers t) :
    EndsInQuery t s.query := by
  refine ⟨t.take s.start, ?_, h.not_mem, ?_⟩
  · rw [List.append_assoc, ← h.drop_eq, List.take_append_drop]
  · rcases h.start_eq with hzero | hbefore
    · exact .inl (by rw [hzero, List.take_zero])
    · rw [List.getLast?_take, hbefore]
      split
      · next hzero => exact .inl (by rw [hzero, List.take_zero])
      · exact .inr rfl

theorem EndsInQuery.covers {t q : Text} (h : EndsInQuery t q) :
    Span.Covers ⟨t.length - q.length - 1, t.length, q⟩ t := by
  obtain ⟨u, rfl, hq, hu⟩ := h
  have hstart : (u ++ q ++ ['=']).length - q.length - 1 = u.length := by
    simp only [List.length_append, List.length_singleton]
    omega
  rw [hstart]
  refine ⟨rfl, ?_, hq, ?_⟩
  · rw [List.append_assoc, List.drop_left]
    exact List.take_of_length_le (by simp)
  · rcases hu with rfl | hu
    · exact .inl rfl
    · right
      have hpos : 0 < u.length := List.length_pos_iff.2 fun hnil => by simp [hnil] at hu
      rw [List.append_assoc, List.getElem?_append_left (Nat.sub_lt hpos Nat.one_pos),
        ← List.getLast?_eq_getElem?, hu]

/-- A text triggers with a span exactly if the span covers the query that the text ends in. -/
theorem atEnd?_eq_some_iff {t : Text} {s : Span} : Span.atEnd? t = some s ↔ s.Covers t := by
  constructor
  · intro h
    obtain ⟨q, hq, rfl⟩ := atEnd?_inv h
    exact hq.covers
  · intro h
    rw [atEnd?_of_endsInQuery h.endsInQuery]
    have hstart : t.length - s.query.length - 1 = s.start := by
      have hlength := h.length_eq
      have hstop := h.stop_eq
      omega
    rw [hstart, ← h.stop_eq]

/-- The query is an end of the text before the final `=`. -/
theorem EndsInQuery.suffix {t q : Text} (h : EndsInQuery t q) : q <:+ t.dropLast := by
  obtain ⟨u, rfl, -, -⟩ := h
  rw [List.dropLast_concat]
  exact List.suffix_append u q

/-- The query is the longest end without `=` of the text before the final `=`. -/
theorem EndsInQuery.suffix_of_not_mem {t q r : Text} (h : EndsInQuery t q) (hr : r <:+ t.dropLast)
    (hmem : '=' ∉ r) : r <:+ q := by
  obtain ⟨u, rfl, -, hu⟩ := h
  rw [List.dropLast_concat] at hr
  obtain ⟨v, hv⟩ := hr
  rcases List.append_eq_append_iff.1 hv with ⟨w, rfl, rfl⟩ | ⟨w, -, hw⟩
  · -- What `r` has in front of `q` ends in `=`, unless there is nothing.
    cases hlast : w.getLast? with
    | none =>
      rw [List.getLast?_eq_none_iff.1 hlast]
      exact List.suffix_refl q
    | some c =>
      rw [List.getLast?_append, hlast, Option.some_or, List.append_eq_nil_iff] at hu
      rcases hu with ⟨-, rfl⟩ | hu
      · cases hlast
      · cases hu
        exact absurd (List.mem_append_left q (List.mem_of_getLast? hlast)) hmem
  · exact ⟨w, hw.symm⟩

/-- No other end of that text without `=` is as long. -/
theorem endsInQuery_of_longest {t q : Text} (hlast : t.getLast? = some '=')
    (hsuffix : q <:+ t.dropLast) (hq : '=' ∉ q)
    (hlongest : ∀ r, r <:+ t.dropLast → '=' ∉ r → r.length ≤ q.length) : EndsInQuery t q := by
  obtain ⟨r, hr⟩ := exists_endsInQuery hlast
  have hqr : q <:+ r := hr.suffix_of_not_mem hsuffix hq
  rwa [hqr.eq_of_length_le (hlongest r hr.suffix hr.eq_not_mem)]

/-- The trigger at the end of a text is what the leftmost match of the pattern gives.  There is
one exactly if the text ends in `=`.  It is the only span that ends with the text, whose columns
hold its query and an `=`, without an `=` in the query and with nothing or an `=` in front of it.
It is also the only one whose query is the longest end without `=` of what stands before the final
`=`, and which begins as many columns before its end as the query and the `=` have. -/
theorem atEnd?_determined (t : Text) :
    Span.atEnd? t = (Span.pattern.search? t).map (fun found =>
      ⟨t.length - found.2.kept.length - 1, t.length, found.2.kept⟩) ∧
    (Span.pattern.search? t).map Prod.fst = (Span.atEnd? t).map Span.start ∧
    ((Span.atEnd? t).isSome ↔ t.getLast? = some '=') ∧
    (∀ s : Span, Span.atEnd? t = some s ↔ s.Covers t) ∧
    (∀ s : Span, Span.atEnd? t = some s ↔
      t.getLast? = some '=' ∧ s.stop = t.length ∧ s.start + s.query.length + 1 = s.stop ∧
        '=' ∉ s.query ∧ s.query <:+ t.dropLast ∧
        ∀ q, q <:+ t.dropLast → '=' ∉ q → q.length ≤ s.query.length) := by
  refine ⟨?_, ?_, isSome_atEnd?_iff t, fun s => atEnd?_eq_some_iff, fun s => ⟨fun h => ?_, ?_⟩⟩
  · rw [search?_pattern]
    cases hs : Span.atEnd? t with
    | none => rfl
    | some s =>
      obtain ⟨q, -, rfl⟩ := atEnd?_inv hs
      rfl
  · rw [search?_pattern, Option.map_map]
    rfl
  · have hcovers := atEnd?_eq_some_iff.1 h
    have hquery := hcovers.endsInQuery
    exact ⟨getLast?_of_endsInQuery hquery, hcovers.stop_eq, hcovers.length_eq, hcovers.not_mem,
      hquery.suffix, fun q hq hmem => (hquery.suffix_of_not_mem hq hmem).length_le⟩
  · rintro ⟨hlast, hstop, hlength, hmem, hsuffix, hlongest⟩
    have hquery := endsInQuery_of_longest hlast hsuffix hmem hlongest
    have hstart : t.length - s.query.length - 1 = s.start := by omega
    rw [atEnd?_of_endsInQuery hquery, hstart, ← hstop]

end Reckoner
