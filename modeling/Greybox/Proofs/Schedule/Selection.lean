import Greybox.Proofs.Schedule.RoundRobin

namespace Greybox.Scheduler

variable {corpus : Corpus} {target : Nat → Nat} {count id : Nat}

end Greybox.Scheduler
