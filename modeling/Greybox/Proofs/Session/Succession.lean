import Greybox.Proofs.Session.Reliable

namespace Greybox

open Storage (NeverFails)

namespace Corpus

variable {corpus corpus' corpus'' credited : Corpus} {p id : Nat} {valid valid' : Bool}

structure OwnedAs (corpus : Corpus) (p id : Nat) (valid : Bool) : Prop where
  owner : corpus.owner? p = some id
  validity : (corpus.readings Input.valid)[id]? = some valid

theorem fixed_valid : Fixed Input.valid := ⟨fun _ _ => rfl, fun _ _ => rfl⟩

namespace OwnedAs

theorem exists_get? (h : corpus.OwnedAs p id valid) :
    ∃ entry, corpus.get? id = some entry ∧ entry.valid = valid := by
  have hvalidity := h.validity
  rw [getElem?_readings] at hvalidity
  exact Option.map_eq_some_iff.1 hvalidity

theorem valid_eq (h : corpus.OwnedAs p id valid) (h' : corpus.OwnedAs p id valid') :
    valid = valid' :=
  Option.some.inj (h.validity.symm.trans h'.validity)

section

variable {parent : Option Nat} {claims : PointSet}
  (hcredit : Engine.creditParent corpus parent = .ok credited) (input : Input)

include hcredit

theorem keep (h : corpus.OwnedAs p id valid) (hp : p ∉ claims) :
    (credited.insert input claims).1.OwnedAs p id valid := by
  have hvalidity := h.validity
  obtain ⟨hlt, -⟩ := List.getElem?_eq_some_iff.1 hvalidity
  constructor
  · rw [owner?_insert, if_neg hp, Engine.owner?_creditParent hcredit]
    exact h.owner
  · rw [readings_insert fixed_valid, Engine.readings_creditParent hcredit fixed_valid,
      List.getElem?_append_left hlt]
    exact hvalidity

theorem claim (hp : p ∈ claims) :
    (credited.insert input claims).1.OwnedAs p corpus.size input.valid := by
  have hsize : credited.size = corpus.size := Engine.size_creditParent hcredit
  constructor
  · rw [owner?_insert, if_pos hp, hsize]
  · rw [readings_insert fixed_valid, ← hsize, ← length_readings Input.valid credited,
      List.getElem?_concat_length]
    rfl

end

end OwnedAs

/-- The second corpus came later, and the point has its old owner in it, or passed from one with an
invalid run to one with a valid run. -/
def PassesOn (corpus corpus' : Corpus) (p : Nat) : Prop :=
  ∀ id valid, corpus.OwnedAs p id valid →
    corpus'.OwnedAs p id valid ∨ valid = false ∧ ∃ id', corpus'.OwnedAs p id' true

theorem PassesOn.refl (corpus : Corpus) (p : Nat) : corpus.PassesOn corpus p :=
  fun _ _ h => .inl h

theorem PassesOn.trans (h : corpus.PassesOn corpus' p) (h' : corpus'.PassesOn corpus'' p) :
    corpus.PassesOn corpus'' p := by
  intro id valid howned
  rcases h id valid howned with hkept | ⟨hinvalid, id', hpassed⟩
  · exact h' id valid hkept
  · rcases h' id' true hpassed with hkept | ⟨hagain, -⟩
    · exact .inr ⟨hinvalid, id', hkept⟩
    · cases hagain

end Corpus

/-- Every owner has an entry, and the points of one with a valid run were covered by valid runs. -/
def Findings.Vouched (findings : Findings) : Prop :=
  ∀ p id, findings.corpus.owner? p = some id → ∃ valid, findings.corpus.OwnedAs p id valid ∧
    (valid = true → findings.feedback.valid.get p ≠ 0)

namespace Engine.Takes

variable {σ : Type} [Storage σ] {findings findings' : Findings} {store later : σ} {input : Input}
  {run : Coverage} {valid : Bool} {result : Except EngineError Outcome} {settings : Settings}

section

variable (h : Takes findings store input run valid result findings' later)

include h

theorem valid_within (hobeys : findings.feedback.Obeys settings) :
    findings.feedback.valid.Within findings'.feedback.valid := by
  cases h with
  | rejected | ignored => exact .refl _
  | discarded hsize | saved hsize => exact hobeys.valid_within_commit hsize

theorem vouched (hvalid : input.valid = valid) (hobeys : findings.feedback.Obeys settings)
    (hvouched : findings.Vouched) : findings'.Vouched := by
  have hwithin := h.valid_within hobeys
  cases h with
  | rejected | ignored => exact hvouched
  | discarded =>
    intro p id howner
    obtain ⟨owned, hold, hvouch⟩ := hvouched p id howner
    exact ⟨owned, hold, fun htrue => hwithin.get_ne_zero (hvouch htrue)⟩
  | saved hsize hclaims htrim hcredit hrecords hdeposits =>
    rename_i verdict trimmed credited path logged
    obtain rfl := Input.eq_of_trim htrim
    intro p id howner
    simp only [Findings.save, Corpus.owner?_insert, Engine.owner?_creditParent hcredit] at howner
    by_cases hp : p ∈ verdict.responsibilities
    · rw [if_pos hp, Engine.size_creditParent hcredit] at howner
      obtain rfl := Option.some.inj howner
      refine ⟨input.valid, .claim hcredit (sealed input.trim.2 run path) hp, ?_⟩
      intro htrue
      obtain rfl := hvalid.symm.trans htrue
      have hhit : run.get p ≠ 0 := Feedback.get_ne_zero_of_mem_claims (hclaims ▸ hp)
      exact (Coverage.get_merge_ne_zero_iff (hsize.trans hobeys.size_eq.symm)).2 (.inr hhit)
    · rw [if_neg hp] at howner
      obtain ⟨owned, hold, hvouch⟩ := hvouched p id howner
      exact ⟨owned, hold.keep hcredit _ hp, fun htrue => hwithin.get_ne_zero (hvouch htrue)⟩

theorem passesOn (hvalid : input.valid = valid) (hcovered : findings.OwnsOnlyCovered)
    (hvouched : findings.Vouched) (p : Nat) : findings.corpus.PassesOn findings'.corpus p := by
  cases h with
  | rejected | ignored | discarded => exact .refl _ p
  | saved hsize hclaims htrim hcredit hrecords hdeposits =>
    rename_i verdict trimmed credited path logged
    obtain rfl := Input.eq_of_trim htrim
    intro id owned hold
    by_cases hp : p ∈ verdict.responsibilities
    · -- A point with an owner is covered, so only a valid run may claim it.
      have hcover : findings.feedback.total.get p ≠ 0 := hcovered p id hold.owner
      rw [hclaims] at hp
      obtain ⟨-, hfresh | ⟨rfl, hfresh⟩⟩ := Feedback.mem_claims.1 hp
      · exact absurd hfresh hcover
      · obtain ⟨owned', hold', hvouch⟩ := hvouched p id hold.owner
        obtain rfl := hold.valid_eq hold'
        have hinvalid : owned = false := Bool.eq_false_iff.2 fun htrue => hvouch htrue hfresh
        have hclaim := Corpus.OwnedAs.claim hcredit (sealed input.trim.2 run path) (hclaims ▸ hp)
        have hnew : (sealed input.trim.2 run path).valid = true := hvalid
        rw [hnew] at hclaim
        exact .inr ⟨hinvalid, _, hclaim⟩
    · exact .inl (hold.keep hcredit _ hp)

end

end Engine.Takes

namespace Session

variable {σ ρ : Type} [Storage σ] [WordSource ρ] {conduct : Conduct} {settings : Settings}
  {storage : σ} {session session' middle later : Session σ ρ}

theorem Reachable.vouched (h : Reachable conduct settings storage session)
    (hpulls : conduct.OnlyPulls) (hstore : NeverFails storage) :
    session.engine.findings.Vouched := by
  refine h.takes_induction (P := fun findings _ _ => findings.Vouched) hpulls hstore ?_ ?_ ?_
  · intro p id howner
    cases (Corpus.owner?_empty p).symm.trans howner
  · intro findings store later reports hvouched _
    exact hvouched
  · intro session report findings later hreachable htakes hvouched
    exact Engine.Takes.vouched htakes rfl hreachable.obeys hvouched

theorem Step.passesOn (hstep : Step conduct session session') (hpulls : conduct.OnlyPulls)
    (h : Reachable conduct settings storage session) (hstore : NeverFails storage) (p : Nat) :
    session.engine.corpus.PassesOn session'.engine.corpus p := by
  rcases hstep.takes hpulls (h.sound hpulls) hstore with ⟨hsame, -⟩ | ⟨report, -, htakes⟩
  · rw [show session'.engine.corpus = session.engine.corpus from congrArg Findings.corpus hsame]
    exact .refl _ p
  · exact Engine.Takes.passesOn htakes rfl (h.sound hpulls).covered (h.vouched hpulls hstore) p

theorem Reachable.passesOn (h : Reachable conduct settings storage session)
    (hpulls : conduct.OnlyPulls) (hstore : NeverFails storage)
    (hleads : session.Leads conduct later) (p : Nat) :
    session.engine.corpus.PassesOn later.engine.corpus p := by
  induction hleads with
  | refl => exact .refl _ p
  | tail hleads hstep ih => exact ih.trans (hstep.passesOn hpulls (h.leads hleads) hstore p)

/-- Once a point has an owner it always has one. If it is another one later, the point passed from
an entry with an invalid run to one with a valid run, and stays there. -/
theorem Reachable.owner?_settles (h : Reachable conduct settings storage session)
    (hpulls : conduct.OnlyPulls) (hstore : NeverFails storage) {p a : Nat}
    (howner : session.engine.corpus.owner? p = some a) (hmiddle : session.Leads conduct middle)
    (hlater : middle.Leads conduct later) :
    ∃ b, middle.engine.corpus.owner? p = some b ∧ (b ≠ a →
      (∃ old new, session.engine.corpus.get? a = some old ∧ old.valid = false ∧
        middle.engine.corpus.get? b = some new ∧ new.valid = true) ∧
      later.engine.corpus.owner? p = some b) := by
  obtain ⟨valid, hold, -⟩ := h.vouched hpulls hstore p a howner
  rcases h.passesOn hpulls hstore hmiddle p a valid hold with hkept | ⟨rfl, b, hpassed⟩
  · exact ⟨a, hkept.owner, fun hne => absurd rfl hne⟩
  · refine ⟨b, hpassed.owner, ?_⟩
    intro _
    obtain ⟨old, hentry, hinvalid⟩ := hold.exists_get?
    obtain ⟨new, hentry', hvalid⟩ := hpassed.exists_get?
    refine ⟨⟨old, new, hentry, hinvalid, hentry', hvalid⟩, ?_⟩
    rcases (h.leads hmiddle).passesOn hpulls hstore hlater p b true hpassed with hstays | ⟨hagain, -⟩
    · exact hstays.owner
    · cases hagain

end Session

end Greybox
