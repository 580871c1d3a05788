import Reckoner.Proofs.Candidates
import Reckoner.Proofs.Outcomes
import Reckoner.Proofs.Tokens

/-!
# The characters of a text

The only operation on texts is to join two of them.  So a character of a text that a formula is
worth was in the formula, in a literal or a quoted text, unless the text is `true` or `false` or
the scan has put the character into it (`mem_of_evaluate_text`).

Candidates are parts of the query with single spaces, in upper case, and upper case makes no
character below the letters (`mem_of_resolve_text`).
-/

namespace Reckoner

namespace Formula

/-! ## From a formula to its pieces -/

/-- The text of a literal or quoted text. -/
def Piece.contents : Piece → Text
  | .literal t | .quoted t => t
  | .sign _ | .blank => []

theorem mem_of_pads {t u : Text} (h : Pads t u) {c : Char} (hc : c ∈ u) :
    c ∈ t ∨ c = '.' ∨ c = '0' := by
  induction h with
  | nil => cases hc
  | cons d _ ih =>
    rcases List.mem_cons.1 hc with rfl | hc
    · exact .inl List.mem_cons_self
    · exact (ih hc).imp_left (List.mem_cons_of_mem d)
  | @pad _ _ d _ _ ih =>
    simp only [List.mem_cons] at hc
    rcases hc with rfl | rfl | rfl | hc
    · exact .inl List.mem_cons_self
    · exact .inr (.inl rfl)
    · exact .inr (.inr rfl)
    · exact (ih hc).imp_left (List.mem_cons_of_mem d)

theorem suffix_of_quotedBody {t body rest : Text} (h : quotedBody t = .ok (body, rest)) :
    rest <:+ t := by
  fun_induction quotedBody t generalizing body with
  | case1 => cases h
  | case2 t =>
    cases h
    exact List.suffix_cons _ _
  | case3 => cases h
  | case4 c t _ ih =>
    obtain ⟨⟨_, _⟩, hr, heq⟩ := exists_of_map_eq_ok h
    cases heq
    exact (ih hr).trans ⟨['\\', c], rfl⟩
  | case5 => cases h
  | case6 c t _ _ _ ih =>
    obtain ⟨⟨_, _⟩, hr, heq⟩ := exists_of_map_eq_ok h
    cases heq
    exact (ih hr).trans (List.suffix_cons _ _)

theorem suffix_of_commentEnd {t rest : Text} (h : commentEnd t = some rest) : rest <:+ t := by
  fun_induction commentEnd t with
  | case1 => cases h
  | case2 t =>
    cases h
    exact ⟨['*', '/'], rfl⟩
  | case3 c t _ ih => exact (ih h).trans (List.suffix_cons _ _)

theorem mem_of_quotedBody {t body rest : Text} (h : quotedBody t = .ok (body, rest)) {c : Char}
    (hc : c ∈ body) : c ∈ t := by
  fun_induction quotedBody t generalizing body with
  | case1 => cases h
  | case2 t =>
    cases h
    cases hc
  | case3 => cases h
  | case4 d t _ ih =>
    obtain ⟨⟨_, _⟩, hr, heq⟩ := exists_of_map_eq_ok h
    cases heq
    refine List.mem_cons_of_mem _ ?_
    rcases List.mem_cons.1 hc with rfl | hc
    · exact List.mem_cons_self
    · exact List.mem_cons_of_mem _ (ih hr hc)
  | case5 => cases h
  | case6 d t _ _ _ ih =>
    obtain ⟨⟨_, _⟩, hr, heq⟩ := exists_of_map_eq_ok h
    cases heq
    rcases List.mem_cons.1 hc with rfl | hc
    · exact List.mem_cons_self
    · exact List.mem_cons_of_mem _ (ih hr hc)

theorem mem_extendLiteral {d : Char} {p : Piece} {ps : List Piece}
    (h : p ∈ extendLiteral d ps) :
    p = .literal [d] ∨ (∃ n, .literal n ∈ ps ∧ p = .literal (d :: n)) ∨ p ∈ ps := by
  unfold extendLiteral at h
  split at h
  · rcases List.mem_cons.1 h with heq | h
    · exact .inr (.inl ⟨_, List.mem_cons_self, heq⟩)
    · exact .inr (.inr (List.mem_cons_of_mem _ h))
  · exact (List.mem_cons.1 h).imp_right .inr

/-- The characters of literals and quoted texts are characters of the formula. -/
theorem mem_of_mem_contents {t : Text} {ps : List Piece} (h : pieces t = .ok ps) {p : Piece}
    (hp : p ∈ ps) {c : Char} (hc : c ∈ p.contents) : c ∈ t := by
  fun_induction pieces t generalizing ps p with
  | case1 =>
    cases h
    cases hp
  | case2 => cases h
  | case3 t body rest hbody _ ih =>
    obtain ⟨ps, hps, rfl⟩ := exists_of_map_eq_ok h
    rcases List.mem_cons.1 hp with rfl | hp
    · exact List.mem_cons_of_mem _ (mem_of_quotedBody hbody hc)
    · exact List.mem_cons_of_mem _ ((suffix_of_quotedBody hbody).mem (ih hps hp hc))
  | case4 t ih =>
    have hsuffix : (t.dropWhile (· ≠ '\n')).drop 1 <:+ t :=
      (List.drop_suffix _ _).trans (List.dropWhile_suffix _)
    exact List.mem_cons_of_mem _ (List.mem_cons_of_mem _ (hsuffix.mem (ih h hp hc)))
  | case5 => cases h
  | case6 t rest hrest _ ih =>
    have hmem := (suffix_of_commentEnd hrest).mem (ih h hp hc)
    exact List.mem_cons_of_mem _ (List.mem_cons_of_mem _ hmem)
  | case7 d t _ _ _ s _ ih =>
    obtain ⟨ps, hps, rfl⟩ := exists_of_map_eq_ok h
    rcases List.mem_cons.1 hp with rfl | hp
    · cases hc
    · exact List.mem_cons_of_mem _ (ih hps hp hc)
  | case8 d t _ _ _ _ _ ih =>
    obtain ⟨ps, hps, rfl⟩ := exists_of_map_eq_ok h
    rcases List.mem_cons.1 hp with rfl | hp
    · cases hc
    · exact List.mem_cons_of_mem _ (ih hps hp hc)
  | case9 d t _ _ _ _ _ ih =>
    obtain ⟨ps, hps, rfl⟩ := exists_of_map_eq_ok h
    rcases mem_extendLiteral hp with rfl | ⟨n, hn, rfl⟩ | hp
    · rw [List.mem_singleton.1 hc]
      exact List.mem_cons_self
    · rcases List.mem_cons.1 hc with rfl | hc
      · exact List.mem_cons_self
      · exact List.mem_cons_of_mem _ (ih hps hn hc)
    · exact List.mem_cons_of_mem _ (ih hps hp hc)

/-! ## From a formula to its tree -/

theorem parse_inv {formula : Text} {t : Tree} (h : parse formula = .ok t) :
    ∃ ps ts, pieces formula = .ok ps ∧ Reads ps ts ∧ t.leaves = operands ts := by
  unfold parse at h
  split at h
  · cases h
  · next ps hps =>
    split at h
    · cases h
    · next ts hts => exact ⟨ps, ts, hps, reads_tokens hts, leaves_tree h⟩

/-! ## From the leaves of a tree to its value -/

/-- The text that a leaf writes. -/
def Operator.contents : Operator → Text
  | .literal (.text t) | .write t => t
  | _ => []

theorem contents_of_literalValue? {t : Text} {v : Value} (h : literalValue? t = some v) :
    (Operator.literal v).contents = [] := by
  unfold literalValue? at h
  split at h
  · cases h
    rfl
  · split at h
    · cases h
      rfl
    · split at h
      · cases h
        rfl
      · split at h
        · cases h
          rfl
        · cases h

/-- What the leaves write stands in the pieces. -/
theorem contents_operands {ps : List Piece} {ts : List Token} (h : Reads ps ts) :
    (operands ts).flatMap Operator.contents ⊆ ps.flatMap Piece.contents := by
  induction h with
  | nil => exact List.Subset.refl _
  | blank _ ih => exact ih
  | sign hs _ ih =>
    rw [operands_mark (isMark_of_alone? hs)]
    exact ih
  | joined ss hmark _ ih =>
    rw [operands_mark hmark]
    refine List.Subset.trans ih fun c hc => ?_
    obtain ⟨p, hp, hmem⟩ := List.mem_flatMap.1 hc
    exact List.mem_flatMap.2 ⟨p, by simp [hp], hmem⟩
  | quoted _ ih =>
    exact List.append_subset.2
      ⟨List.subset_append_left _ _, List.subset_append_of_subset_right _ ih⟩
  | @value t v ps ts hv _ ih =>
    have hnone : (operands (.value v :: ts)).flatMap Operator.contents =
        (operands ts).flatMap Operator.contents := by
      show (Operator.literal v).contents ++ _ = _
      rw [contents_of_literalValue? hv]
      rfl
    rw [hnone]
    exact List.subset_append_of_subset_right _ ih
  | @name t ps ts _ _ _ ih =>
    have hlater : (operands ts).flatMap Operator.contents ⊆
        t ++ ps.flatMap Piece.contents := List.subset_append_of_subset_right _ ih
    rcases operands_name t ts with heq | heq | heq <;> rw [heq]
    · exact List.append_subset.2 ⟨List.subset_append_left _ _, hlater⟩
    · exact hlater
    · exact hlater
  | split _ _ _ ih =>
    exact List.subset_append_of_subset_right _ (List.subset_append_of_subset_right _
      (List.subset_append_of_subset_right _ ih))

variable {lookup : Text → Option Float}

/-- A text that a tree is worth consists of characters that its leaves write. -/
theorem Tree.text_subset_leaves {t : Tree} {u : Text} (h : t.value lookup = .ok (.text u)) :
    u ⊆ t.leaves.flatMap Operator.contents := by
  refine t.value_invariant (fun v => ∀ u, v = .text u → u ⊆ t.leaves.flatMap Operator.contents)
    (fun op vs v hop hvs hgives u hu => ?_) h u rfl
  have hleaf : op.isLeaf = true → op.contents = u → u ⊆ t.leaves.flatMap Operator.contents := by
    intro hleaf hcontents c hc
    exact List.mem_flatMap.2 ⟨op, hop hleaf, hcontents ▸ hc⟩
  cases hgives with
  | argument hmem => exact hvs _ hmem u hu
  | literal heq =>
    subst hu heq
    exact hleaf rfl rfl
  | written heq =>
    cases hu
    subst heq
    exact hleaf rfl rfl
  | joined hs ht =>
    cases hu
    exact List.append_subset.2 ⟨hvs _ hs _ rfl, hvs _ ht _ rfl⟩
  | _ => cases hu

/-- A text that a formula is worth consists of characters of the formula. -/
theorem text_subset {formula : Text} {t : Tree} (ht : parse formula = .ok t) {u : Text}
    (hu : t.value lookup = .ok (.text u)) : u ⊆ formula := by
  obtain ⟨ps, ts, hps, hreads, hleaves⟩ := parse_inv ht
  intro c hc
  have hpiece : c ∈ ps.flatMap Piece.contents :=
    contents_operands hreads (hleaves ▸ Tree.text_subset_leaves hu hc)
  obtain ⟨p, hp, hmem⟩ := List.mem_flatMap.1 hpiece
  exact mem_of_mem_contents hps hp hmem

end Formula

open Formula

/-! ## Answers -/

namespace Calculator

/-- A text that a formula is worth is a truth value, or it consists of characters of the formula
and of what the scan puts there. -/
theorem mem_of_evaluate_text {c : Calculator} {formula t : Text}
    (h : c.evaluate formula = .ok (.text t)) :
    (∃ b, t = truthText b) ∨ ∀ d ∈ t, d ∈ formula ∨ d = '.' ∨ d = '0' := by
  obtain ⟨tree, htree, h⟩ := exists_of_bind_eq_ok h
  obtain ⟨v, hv, hanswer⟩ := exists_of_bind_eq_ok h
  cases v with
  | text u =>
    cases hanswer
    exact .inr fun d hd => mem_of_pads (pads_widen formula) (text_subset htree hv hd)
  | truth b =>
    cases hanswer
    exact .inl ⟨b, rfl⟩
  | integer n => cases hanswer
  | float x => cases hanswer
  | tuple vs => cases hanswer
  | empty => cases hanswer

/-- A character below the letters in a text that a query resolves to is one of the query, or a
space, a point or a zero. -/
theorem mem_of_resolve_text {c : Calculator} {query t : Text}
    (h : c.resolve query = some (.text t)) {d : Char} (hd : d ∈ t)
    (hlow : d.toNat < 'A'.toNat) : d ∈ query ∨ d = ' ' ∨ d = '.' ∨ d = '0' := by
  rw [resolve, resolve_eq, candidates_upper] at h
  obtain ⟨candidate, hcandidate, hvalue⟩ := List.exists_of_findSome?_eq_some h
  have hevaluate : c.evaluate candidate = .ok (.text t) := toOption_eq_some_iff.1 hvalue
  obtain ⟨spelled, hspelled, rfl⟩ := List.mem_map.1 hcandidate
  rcases mem_of_evaluate_text hevaluate with ⟨b, rfl⟩ | hchars
  · -- the two words have letters alone
    have hletters : (truthText b).all (fun d => 'A'.toNat ≤ d.toNat) = true := by cases b <;> rfl
    have hletter : 'A'.toNat ≤ d.toNat := of_decide_eq_true (List.all_eq_true.1 hletters d hd)
    exact absurd hlow (Nat.not_lt.2 hletter)
  · rcases hchars d hd with hmem | hscan
    · exact (mem_of_mem_candidates hspelled ((Text.mem_upper_iff hlow).1 hmem)).symm.imp_right .inl
    · exact .inr (.inr hscan)

end Calculator

end Reckoner
