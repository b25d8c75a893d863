import ViewLint.Fix.Payload
import ViewLint.Proofs.Finding.Json
import ViewLint.Proofs.Fix.Splice

/-!
# Fixing a written finding

The text of a finding holds the span and the view of the finding, and reading them back goes through
values and not through the decoder of findings. So a written finding fixes like the finding itself,
and what it refuses is never its own text.

## Main results

* `Finding.readable_toJson`: the value of a finding is read back.
* `readPayload_compact_toJson`: the span and the view that are read from a written finding.
* `Tree.fixAt_eq_error`: a fix by span and view is refused for what stands at the span.
* `Tree.fixPayload_compact_toJson`: the fix of a written finding is the fix of the finding.
-/

namespace ViewLint

open Json

theorem Span.readable_toJson {s : Span} (h : s.Fits) (depth : Nat) :
    s.toJson.Readable (depth + 1) := by
  apply Value.Readable.object
  simp only [List.forall_mem_cons, List.not_mem_nil, false_implies, implies_true, and_true]
  exact ⟨.scalar (.natural h.start), .scalar (.natural h.stop)⟩

theorem Finding.readable_toJson {f : Finding} (h : f.Fits) (depth : Nat) :
    f.toJson.Readable (depth + 2) := by
  have hargs : (Value.array (f.messageArgs.map .string)).Readable (depth + 1) := by
    apply Value.Readable.array
    intro v hv
    obtain ⟨s, -, rfl⟩ := List.mem_map.mp hv
    exact .scalar (.string s)
  apply Value.Readable.object
  simp only [List.forall_mem_cons, List.not_mem_nil, false_implies, implies_true, and_true]
  exact ⟨.scalar (.string _), .scalar (.string _), .scalar (.string _), .scalar (.string _),
    .scalar (.string _), .scalar (.string _), .scalar (.natural h.line),
    .scalar (.natural h.column), Span.readable_toJson h.span depth, .scalar (.string _), hargs⟩

/-! ### What is read -/

theorem Span.ofJson_toJson (s : Span) : Span.ofJson s.toJson = .ok s :=
  rfl

theorem View.ofMember?_member (v : View) : View.ofMember? v.member = some v := by
  cases v <;> rfl

theorem Finding.get?_span_toJson (f : Finding) : f.toJson.get? "span" = some f.span.toJson :=
  rfl

theorem Finding.get?_viewField_toJson (f : Finding) :
    f.toJson.get? Finding.viewField = some (.string f.view.member) :=
  rfl

/-- The span and the view of a finding are read from its text. -/
theorem readPayload_compact_toJson {f : Finding} (h : f.Fits) :
    readPayload f.toJson.compact = .ok (f.span, f.view) := by
  -- A finding nests two deep, and the reader goes 125 levels deeper than that.
  have hparse : Value.parse? f.toJson.compact = some f.toJson :=
    Value.parse?_compact (Finding.readable_toJson h 125)
  simp only [readPayload, hparse, f.get?_span_toJson, Span.ofJson_toJson,
    f.get?_viewField_toJson, Option.bind_some, Value.string?, View.ofMember?_member]

/-! ### The fix -/

namespace Tree

theorem callAt_eq_error {t : Tree} {s : Span} {e : FixError} (h : t.callAt s = .error e) :
    e = .nodeNotFound s ∨ ∃ kind, e = .notAnInvocation s kind := by
  rw [callAt] at h
  split at h
  next => exact .inl (Except.error.inj h).symm
  next =>
    split at h
    next => exact .inl (Except.error.inj h).symm
    next located _ =>
      split at h
      next => cases h
      next =>
        simp only at h
        split at h
        next => cases h
        next => exact .inr ⟨located.kind, (Except.error.inj h).symm⟩

/-- A fix is refused for what stands at its span. -/
theorem fixAt_eq_error {t : Tree} {s : Span} {v : View} {e : FixError}
    (h : t.fixAt s v = .error e) :
    e = .nodeNotFound s ∨ (∃ kind, e = .notAnInvocation s kind) ∨ e = .missingReceiver s := by
  rw [fixAt] at h
  split at h
  next hcall =>
    cases h
    exact (callAt_eq_error hcall).imp_right .inl
  next =>
    split at h
    next => exact .inr (.inr (Except.error.inj h).symm)
    next =>
      split at h
      next => cases h
      next => exact .inl (Except.error.inj h).symm

/-- **A written finding fixes like the finding itself.** The answer is the same tree or the same
refusal, and the text is never what is refused. -/
theorem fixPayload_compact_toJson (t : Tree) {f : Finding} (h : f.Fits) :
    t.fixPayload f.toJson.compact = t.fix f ∧
      ∀ cause, t.fixPayload f.toJson.compact ≠ .error (.malformedPayload cause) := by
  have hfix : t.fixPayload f.toJson.compact = t.fix f := by
    simp only [fixPayload, readPayload_compact_toJson h, fix]
  refine ⟨hfix, fun cause hrefused => ?_⟩
  rw [hfix, fix] at hrefused
  rcases fixAt_eq_error hrefused with hcause | ⟨kind, hcause⟩ | hcause <;> cases hcause

/-- A finding with awkward strings, written, fixes the first call. -/
theorem fixPayload_compact_toJson_projections :
    let f : Finding := { Finding.escaped with span := ⟨2, 20⟩, view := .keys }
    f.Fits ∧ projections.fixPayload f.toJson.compact = projections.fix f ∧
      (projections.fixPayload f.toJson.compact).toOption.map Tree.text =
        some "( d.Keys, d.Select(e=>e.Key))" := by
  have hfits : Finding.Fits { Finding.escaped with span := ⟨2, 20⟩, view := .keys } :=
    ⟨by decide, by decide, ⟨by decide, by decide⟩⟩
  have hfix := (fixPayload_compact_toJson projections hfits).1
  refine ⟨hfits, hfix, ?_⟩
  rw [hfix]
  rfl

end Tree

end ViewLint
