import Greybox.Proofs.Session.Replay
import Greybox.Proofs.Session.Steady
import Greybox.Proofs.Storage.Memory
import Greybox.Team

namespace Greybox

open Storage (NeverFails)
open Session (Reachable)

variable {σ ρ : Type} [Storage σ] {settings : Settings} {storage : σ} {engine : Engine σ ρ}
  {outstanding outstanding' : List Input} {target : Target} {mapSize n trials trials' : Nat}

namespace Client

/-- The client is in a trial that has not been counted yet. -/
def isBusy : Client → Bool
  | cleared | given _ | executed _ _ => true
  | idle | stopped | failed _ => false

def isStopped : Client → Bool
  | stopped => true
  | _ => false

/-- What the client holds was handed out and ran over a map of the given size. It stopped only
because the budget was used up, and did not fail. -/
def InOrder (mapSize n : Nat) (outstanding : List Input) (trials : Nat) : Client → Prop
  | idle | cleared => True
  | given input => input ∈ outstanding
  | executed input execution =>
    (∃ handed ∈ outstanding, handed.Pulls input) ∧ execution.coverage.size = mapSize
  | stopped => n ≤ trials
  | failed _ => False

theorem InOrder.mono {client : Client} (h : client.InOrder mapSize n outstanding trials)
    (hmore : outstanding ⊆ outstanding') (hle : trials ≤ trials') :
    client.InOrder mapSize n outstanding' trials' := by
  cases client with
  | idle | cleared => trivial
  | given input => exact hmore h
  | executed input execution =>
    obtain ⟨⟨handed, hhanded, hpulls⟩, hsize⟩ := h
    exact ⟨⟨handed, hmore hhanded, hpulls⟩, hsize⟩
  | stopped => exact Nat.le_trans h hle
  | failed error => exact h

theorem InOrder.le_of_isStopped {client : Client}
    (h : client.InOrder mapSize n outstanding trials) (hstopped : client.isStopped = true) :
    n ≤ trials := by
  cases client with
  | stopped => exact h
  | _ => cases hstopped

structure Acts (settings : Settings) (storage : σ) (n : Nat) (outstanding : List Input)
    (engine : Engine σ ρ) (client : Client) (outstanding' : List Input) (engine' : Engine σ ρ)
    (client' : Client) : Prop where
  steady : engine'.Steady settings storage outstanding'
  budget : engine'.budget = (some n, none)
  more : outstanding ⊆ outstanding'
  trials_le : engine.trials ≤ engine'.trials
  inOrder : client'.InOrder settings.coverageMapSize n outstanding' engine'.trials
  count : engine'.trials + client'.isBusy.toNat ≤ engine.trials + client.isBusy.toNat ∨
    client.isBusy = false ∧ engine'.trials < n ∧ engine'.trials = engine.trials

theorem Acts.alone {client client' : Client} (hsteady : engine.Steady settings storage outstanding)
    (hbudget : engine.budget = (some n, none))
    (hinOrder : client'.InOrder settings.coverageMapSize n outstanding engine.trials)
    (hbusy : client'.isBusy.toNat ≤ client.isBusy.toNat ∨
      client.isBusy = false ∧ engine.trials < n) :
    client.Acts settings storage n outstanding engine outstanding engine client' := by
  refine ⟨hsteady, hbudget, List.Subset.refl _, Nat.le_refl _, hinOrder, ?_⟩
  obtain hfewer | ⟨hidle, hleft⟩ := hbusy
  · exact .inl (Nat.add_le_add_left hfewer _)
  · exact .inr ⟨hidle, hleft, rfl⟩

variable [WordSource ρ]

theorem act_idle (hbudget : engine.budget = (some n, none)) (target : Target) (mapSize : Nat)
    (now : Moment) :
    idle.act target mapSize now (.sound engine) =
      (if engine.trials < n then cleared else stopped, .sound engine) := by
  simp [act, SharedEngine.hasInput, SharedEngine.withEngine, Engine.hasInput_of_budget hbudget]

theorem exists_acts {client : Client} (hstore : NeverFails storage)
    (hsteady : engine.Steady settings storage outstanding) (hbudget : engine.budget = (some n, none))
    (hclient : client.InOrder settings.coverageMapSize n outstanding engine.trials)
    (target : Target) (now : Moment) :
    ∃ outstanding' engine' client',
      client.act target settings.coverageMapSize now (.sound engine) = (client', .sound engine') ∧
      client.Acts settings storage n outstanding engine outstanding' engine' client' := by
  cases client with
  | idle =>
    have hact := act_idle hbudget target settings.coverageMapSize now
    by_cases hleft : engine.trials < n
    · rw [if_pos hleft] at hact
      exact ⟨_, _, _, hact, .alone hsteady hbudget trivial (.inr ⟨rfl, hleft⟩)⟩
    · rw [if_neg hleft] at hact
      exact ⟨_, _, _, hact, .alone hsteady hbudget (Nat.not_lt.1 hleft) (.inl (Nat.le_refl _))⟩
  | cleared =>
    obtain ⟨input, engine', hinput, hgiven, htrials, hkept⟩ := hsteady.nextInput
    refine ⟨outstanding ++ [input], engine', given input, ?_, hgiven, hkept.trans hbudget,
      List.subset_append_left _ _, Nat.le_of_eq htrials.symm, ?_, .inl ?_⟩
    · simp [act, SharedEngine.nextInput, SharedEngine.attempt, hinput]
    · exact List.mem_append_right outstanding (List.mem_singleton_self input)
    · exact Nat.le_of_eq (congrArg (· + 1) htrials)
  | given input =>
    obtain ⟨hpulls, hsize⟩ := target.execute_returns settings.coverageMapSize input
    exact ⟨_, _, _, rfl, .alone hsteady hbudget ⟨⟨input, hclient, hpulls⟩, hsize⟩
      (.inl (Nat.le_refl _))⟩
  | executed input execution =>
    obtain ⟨⟨handed, hhanded, hpulls⟩, hsize⟩ := hclient
    obtain ⟨result, engine', hreport, htaken, hcounted, hkept, hlost⟩ :=
      hsteady.reportResult hstore hhanded hpulls hsize now execution.status.isValid
    have hle : engine.trials ≤ engine'.trials := by omega
    have hcount : engine'.trials ≤ engine.trials + 1 := by omega
    simp only [act, SharedEngine.reportResult, SharedEngine.attempt, hreport]
    cases result with
    | ok outcome =>
      exact ⟨outstanding, engine', idle, rfl, htaken, hkept.trans hbudget, List.Subset.refl _, hle,
        trivial, .inl hcount⟩
    | error error =>
      obtain rfl := hlost error rfl
      exact ⟨outstanding, _, idle, rfl, htaken.note _, hkept.trans hbudget, List.Subset.refl _, hle,
        trivial, .inl hcount⟩
  | stopped => exact ⟨_, _, _, rfl, .alone hsteady hbudget hclient (.inl (Nat.le_refl _))⟩
  | failed error => exact hclient.elim

end Client

namespace Team

/-- Every client is in order with the engine that the team shares, and together with the trials
under way less than a budget and one trial for each client were done. -/
structure InOrder (settings : Settings) (storage : σ) (n : Nat) (outstanding : List Input)
    (engine : Engine σ ρ) (team : Team σ ρ) : Prop where
  shared : team.shared = .sound engine
  steady : engine.Steady settings storage outstanding
  budget : engine.budget = (some n, none)
  clients : ∀ client ∈ team.clients,
    client.InOrder settings.coverageMapSize n outstanding engine.trials
  count : engine.trials + team.clients.countP Client.isBusy < n + team.clients.length

theorem countP_set_add {clients : List Client} {index : Nat} {client : Client} (client' : Client)
    (h : clients[index]? = some client) :
    (clients.set index client').countP Client.isBusy + client.isBusy.toNat =
      clients.countP Client.isBusy + client'.isBusy.toNat := by
  obtain ⟨hlt, rfl⟩ := List.getElem?_eq_some_iff.1 h
  have hbit : ∀ busy : Bool, (if busy = true then 1 else 0) = busy.toNat := by decide
  have hle : clients[index].isBusy.toNat ≤ clients.countP Client.isBusy := by
    cases hbusy : clients[index].isBusy with
    | false => exact Nat.zero_le _
    | true => exact List.countP_pos_iff.2 ⟨clients[index], List.getElem_mem hlt, hbusy⟩
  rw [List.countP_set hlt, hbit, hbit]
  omega

variable [WordSource ρ] {team : Team σ ρ}

theorem InOrder.take (h : team.InOrder settings storage n outstanding engine)
    (hstore : NeverFails storage) (target : Target) (turn : Turn) :
    ∃ outstanding' engine', (team.take target settings.coverageMapSize turn).InOrder settings
      storage n outstanding' engine' ∧
      (team.take target settings.coverageMapSize turn).clients.length = team.clients.length := by
  rw [Team.take]
  cases hclient : team.clients[turn.client]? with
  | none => exact ⟨outstanding, engine, h, rfl⟩
  | some client =>
    have hmem : client ∈ team.clients := List.mem_of_getElem? hclient
    obtain ⟨outstanding', engine', client', hact, hacts⟩ :=
      Client.exists_acts hstore h.steady h.budget (h.clients client hmem) target turn.now
    simp only [h.shared, hact]
    refine ⟨outstanding', engine', ⟨rfl, hacts.steady, hacts.budget, ?_, ?_⟩, List.length_set⟩
    · intro other hother
      obtain hold | rfl := List.mem_or_eq_of_mem_set hother
      · exact (h.clients other hold).mono hacts.more hacts.trials_le
      · exact hacts.inOrder
    · have hcount := h.count
      have hset := countP_set_add client' hclient
      simp only [List.length_set]
      obtain hsame | ⟨hidle, hleft, htrials⟩ := hacts.count
      · omega
      · -- The client was not busy, so the others make up less than the team.
        have hothers : team.clients.countP Client.isBusy < team.clients.length := by
          apply Nat.lt_of_le_of_ne List.countP_le_length
          intro hall
          exact Bool.false_ne_true (hidle.symm.trans (List.countP_eq_length.1 hall client hmem))
        have hone : client'.isBusy.toNat ≤ 1 := Bool.toNat_le _
        omega

theorem InOrder.run (h : team.InOrder settings storage n outstanding engine)
    (hstore : NeverFails storage) (target : Target) (turns : List Turn) :
    ∃ outstanding' engine', (team.run target settings.coverageMapSize turns).InOrder settings
      storage n outstanding' engine' ∧
      (team.run target settings.coverageMapSize turns).clients.length = team.clients.length := by
  induction turns generalizing team outstanding engine with
  | nil => exact ⟨outstanding, engine, h, rfl⟩
  | cons turn turns ih =>
    obtain ⟨_, _, htaken, hlength⟩ := h.take hstore target turn
    obtain ⟨outstanding', engine', hrun, hlength'⟩ := ih htaken
    exact ⟨outstanding', engine', hrun, hlength'.trans hlength⟩

omit [WordSource ρ] in
theorem InOrder.start {count : Nat} (hsteady : engine.Steady settings storage outstanding)
    (hbudget : engine.budget = (some n, none)) (hnew : engine.trials = 0) (hcount : 1 ≤ count) :
    (Team.start engine count).InOrder settings storage n outstanding engine := by
  refine ⟨rfl, hsteady, hbudget, ?_, ?_⟩
  · intro client hclient
    rw [List.eq_of_mem_replicate hclient]
    trivial
  · have hidle : (List.replicate count Client.idle).countP Client.isBusy = 0 :=
      List.countP_eq_zero.2 fun client hclient => by
        rw [List.eq_of_mem_replicate hclient]
        exact Bool.false_ne_true
    simp only [Team.start, hidle, hnew, List.length_replicate]
    omega

end Team

namespace Session

variable [WordSource ρ] {session : Session σ ρ} {count : Nat}

/-- Clients that share an engine over a store that never fails overrun a budget of trials by less
than one trial each, in whatever order they take their turns, and do not stop before it is used up.
None of them fails, and at every moment the saved inputs own exactly the covered points. -/
theorem Reachable.team_overrun (h : Reachable .any settings storage session)
    (hstore : NeverFails storage) (hnew : session.engine.trials = 0)
    (htrials : session.engine.maxTrials = some n) (hduration : session.engine.maxDuration = none)
    (hcount : 1 ≤ count) (target : Target) (turns : List Turn) :
    let team := (Team.start session.engine count).run target settings.coverageMapSize turns
    ∃ engine, team.shared = .sound engine ∧ engine.trials ≤ n + count - 1 ∧
      ((∀ client ∈ team.clients, client.isStopped = true) →
        n ≤ engine.trials ∧ (count = 1 → engine.trials = n)) ∧
      (∀ client ∈ team.clients, ∀ error, client ≠ .failed error) ∧
      ∀ p, (∃ id entry, engine.corpus.get? id = some entry ∧ entry.Owns p) ↔
        engine.totalCoverage.get p ≠ 0 := by
  intro team
  have hstart := Team.InOrder.start (Engine.Steady.of_reachable h hstore)
    (Prod.ext htrials hduration) hnew hcount
  obtain ⟨outstanding, engine, hrun, hlength⟩ : ∃ outstanding engine,
      team.InOrder settings storage n outstanding engine ∧
        team.clients.length = (Team.start session.engine count).clients.length :=
    hstart.run hstore target turns
  have hclients : team.clients.length = count := by
    rw [hlength, Team.start, List.length_replicate]
  have hbound := hrun.count
  refine ⟨engine, hrun.shared, by omega, ?_, ?_, ?_⟩
  · intro hstopped
    have hfirst : 0 < team.clients.length := by omega
    have hmem : team.clients[0] ∈ team.clients := List.getElem_mem hfirst
    have hspent : n ≤ engine.trials := (hrun.clients _ hmem).le_of_isStopped (hstopped _ hmem)
    refine ⟨hspent, ?_⟩
    intro hone
    omega
  · rintro client hclient error rfl
    exact hrun.clients _ hclient
  · intro p
    refine Iff.trans ?_ (hrun.steady.owns p)
    constructor
    · rintro ⟨id, hentry⟩
      exact ⟨id, (hrun.steady.sound.lockstep p id).2 hentry⟩
    · rintro ⟨id, howner⟩
      exact ⟨id, (hrun.steady.sound.lockstep p id).1 howner⟩

def racing : Team MemoryStore ChaCha :=
  let seeded := ((sampleLimited ∅ 1).addSeed sampleSeed).addSeed sampleSeed
  (Team.start seeded.engine 2).run sampleTarget 4
    ([0, 1, 0, 1, 0, 1, 0, 1, 0, 1].map fun client => ⟨client, 0⟩)

theorem team_overrun_racing :
    ∃ engine, racing.shared = .sound engine ∧ 1 ≤ engine.trials ∧ engine.trials ≤ 2 := by
  have hseeded : Reachable .any sampleSettings (∅ : MemoryStore)
      (((sampleLimited ∅ 1).addSeed sampleSeed).addSeed sampleSeed) :=
    ((sampleLimited_reachable ∅ 1).step (.addSeed trivial)).step (.addSeed trivial)
  obtain ⟨engine, hshared, hbound, hstopped, -⟩ :=
    hseeded.team_overrun (MemoryStore.neverFails ∅) rfl rfl rfl (by decide : 1 ≤ 2) sampleTarget
      ([0, 1, 0, 1, 0, 1, 0, 1, 0, 1].map fun client => ⟨client, 0⟩)
  have hall : racing.clients.all Client.isStopped = true := by decide +kernel
  exact ⟨engine, hshared, (hstopped (List.all_eq_true.1 hall)).1, hbound⟩

end Session

end Greybox
