import Greybox.Event

namespace Greybox

structure StatusLine where
  trials : Nat
  coverage : Nat
  rate : Float
  inputSize : Nat

def Event.statusLine? : Event → Option StatusLine
  | status trials coverage rate inputSize => some ⟨trials, coverage, rate, inputSize⟩
  | _ => none

/-- The lines logged so far, the number of trials, and what it was when the last line was logged. -/
structure StatusLog where
  lines : List StatusLine
  trials : Nat
  last : Option Nat

namespace StatusLog

variable {log : StatusLog} {line : StatusLine}

def announce (log : StatusLog) (line : StatusLine) : StatusLog :=
  if log.last = some log.trials then log
  else { log with lines := log.lines ++ [line], last := some log.trials }

def count (log : StatusLog) : StatusLog := { log with trials := log.trials + 1 }

@[simp] theorem trials_announce (log : StatusLog) (line : StatusLine) :
    (log.announce line).trials = log.trials := by
  rw [announce]
  split <;> rfl

@[simp] theorem last_announce (log : StatusLog) (line : StatusLine) :
    (log.announce line).last = some log.trials := by
  rw [announce]
  split
  · assumption
  · rfl

theorem announce_of_last (h : log.last = some log.trials) (line : StatusLine) :
    log.announce line = log := if_pos h

/-- The numbers rise from line to line, and the last one is remembered and not ahead of the
trials. -/
structure Sound (log : StatusLog) : Prop where
  rising : log.lines.Pairwise (·.trials < ·.trials)
  le_last : ∀ line ∈ log.lines, ∃ n, log.last = some n ∧ line.trials ≤ n
  last_mem : ∀ n, log.last = some n → n ≤ log.trials ∧ ∃ line ∈ log.lines, line.trials = n

theorem sound_empty (trials : Nat) : Sound ⟨[], trials, none⟩ :=
  ⟨.nil, nofun, nofun⟩

theorem Sound.last_eq_iff (h : log.Sound) :
    log.last = some log.trials ↔ ∃ line ∈ log.lines, line.trials = log.trials := by
  constructor
  · intro hlast
    exact (h.last_mem _ hlast).2
  · rintro ⟨line, hline, heq⟩
    obtain ⟨n, hlast, hle⟩ := h.le_last line hline
    have hn := (h.last_mem n hlast).1
    rw [hlast, Nat.le_antisymm hn (heq ▸ hle)]

theorem Sound.announce (h : log.Sound) (hline : line.trials = log.trials) :
    (log.announce line).Sound := by
  rw [StatusLog.announce]
  split
  · exact h
  rename_i hnew
  have hbefore : ∀ old ∈ log.lines, old.trials < log.trials := by
    intro old hold
    obtain ⟨n, hlast, hle⟩ := h.le_last old hold
    have hn := (h.last_mem n hlast).1
    have hne : n ≠ log.trials := fun heq => hnew (heq ▸ hlast)
    omega
  refine ⟨?_, ?_, ?_⟩
  · rw [List.pairwise_append]
    refine ⟨h.rising, List.pairwise_singleton _ _, fun old hold next hnext => ?_⟩
    rw [List.mem_singleton.1 hnext, hline]
    exact hbefore old hold
  · intro old hold
    refine ⟨log.trials, rfl, ?_⟩
    rcases List.mem_append.1 hold with hold | hold
    · exact Nat.le_of_lt (hbefore old hold)
    · exact Nat.le_of_eq (by rw [List.mem_singleton.1 hold, hline])
  · rintro n hn
    obtain rfl := Option.some.inj hn
    exact ⟨Nat.le_refl _, line, by simp, hline⟩

theorem Sound.count (h : log.Sound) : log.count.Sound := by
  refine ⟨h.rising, h.le_last, fun n hn => ?_⟩
  obtain ⟨hle, hline⟩ := h.last_mem n hn
  exact ⟨Nat.le_succ_of_le hle, hline⟩

theorem Sound.lines_announce (h : log.Sound) (line : StatusLine) :
    ((∃ old ∈ log.lines, old.trials = log.trials) ∧ (log.announce line).lines = log.lines) ∨
    ((∀ old ∈ log.lines, old.trials ≠ log.trials) ∧
      (log.announce line).lines = log.lines ++ [line]) := by
  by_cases hlast : log.last = some log.trials
  · exact .inl ⟨h.last_eq_iff.1 hlast, congrArg lines (announce_of_last hlast line)⟩
  · refine .inr ⟨fun old hold heq => hlast (h.last_eq_iff.2 ⟨old, hold, heq⟩), ?_⟩
    rw [StatusLog.announce, if_neg hlast]

theorem Sound.lines_announce_count (h : log.Sound) (line : StatusLine) :
    (log.count.announce line).lines = log.lines ++ [line] := by
  rcases h.count.lines_announce line with ⟨⟨old, hold, heq⟩, -⟩ | ⟨-, hlines⟩
  · obtain ⟨n, hlast, hle⟩ := h.le_last old hold
    have hn := (h.last_mem n hlast).1
    have hnext : old.trials = log.trials + 1 := heq
    omega
  · exact hlines

end StatusLog

end Greybox
