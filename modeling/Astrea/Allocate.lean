/-
# The allocation of a release

`AllocateWinners` splits every position's prize over the members of the team that won it,
in whole stroops: the floor of each share, the remainder to the member with the lowest
ordinal.  Sums and products are those of Go's `int64`, which wraps.
-/
import Astrea.Amount

open Guard

namespace Service

/-- One prize slot, in the token's smallest unit. -/
structure Position where
  place : UInt32
  amount : Int64
  deriving DecidableEq

/-- A team member as the allocation sees it. -/
structure Member where
  address : Address
  ordinal : Int64
  shareBasisPoints : Int64
  deriving DecidableEq

/-- A position's place with the team that won it. -/
structure WinningTeam where
  place : UInt32
  members : List Member
  deriving DecidableEq

/-- One payout line. -/
structure Winner where
  place : UInt32
  amount : Int64
  address : Address
  deriving DecidableEq

/-- The position, and where there is one the member and its share, that made an
allocation impossible. -/
structure AllocationError where
  place : UInt32
  memberAddress : Option Address
  shareBasisPoints : Int64
  reason : Message
  deriving DecidableEq

def AllocationError.error (e : AllocationError) : Message :=
  match e.memberAddress with
  | none => .wrap "escrow: position %d: " [.int e.place.toNat] e.reason
  | some a => .wrap "escrow: position %d, member %s (share %d bp): "
      [.int e.place.toNat, .address a, .int e.shareBasisPoints.toInt] e.reason

/-- How an allocation fails: an `AllocationError`, another error, or the panic of its own
post-condition. -/
inductive AllocateFailure where
  | allocation (e : AllocationError)
  | error (m : Message)
  | panicked (m : Message)
  deriving DecidableEq

def totalShareBasisPoints : Int64 := 10000

/-- The contract's cap on a winners list. -/
def maxWinners : ℕ := 25

/-! ## The checks -/

/-- Rule 1: every position amount is positive; the sum of all. -/
def sumPositions (acc : Int64) : List Position → Except AllocateFailure Int64
  | [] => .ok acc
  | p :: ps => do
      ensure (0 < p.amount) (.allocation ⟨p.place, none, 0,
        ⟨"position amount must be > 0, got %d", [.int p.amount.toInt]⟩⟩)
      sumPositions (acc + p.amount) ps

/-- Rule 2, first half: no two teams for one place. -/
def indexTeams (teamByPlace : List WinningTeam) :
    List WinningTeam → Except AllocateFailure (List WinningTeam)
  | [] => .ok teamByPlace
  | t :: ts => do
      ensure (∀ t' ∈ teamByPlace, t'.place ≠ t.place) (.error
        ⟨"escrow: more than one winning team declared for position %d", [.int t.place.toNat]⟩)
      indexTeams (t :: teamByPlace) ts

/-- Rule 2, second half: positive shares and distinct ordinals; the sum of the shares. -/
def sumShares (place : UInt32) (seenOrdinal : List Int64) (shareSum : Int64) :
    List Member → Except AllocateFailure Int64
  | [] => .ok shareSum
  | m :: ms => do
      ensure (0 < m.shareBasisPoints) (.allocation ⟨place, some m.address, m.shareBasisPoints,
        ⟨"share must be greater than zero basis points", []⟩⟩)
      ensure (m.ordinal ∉ seenOrdinal) (.allocation ⟨place, some m.address, 0,
        ⟨"duplicate ordinal %d within the team", [.int m.ordinal.toInt]⟩⟩)
      sumShares place (m.ordinal :: seenOrdinal) (shareSum + m.shareBasisPoints) ms

/-! ## The split of one position -/

/-- Rule 3: the floor of every member's share. -/
def floors (amount : Int64) (members : List Member) : List Int64 :=
  -- the product is an `int64` and wraps before it is divided
  members.map fun m => amount * m.shareBasisPoints / totalShareBasisPoints

/-- The index of the first member with the lowest ordinal, among those from index `i` on
and the candidate `lowest`. -/
def lowestOrdinal (lowest : ℕ) (ordinal : Int64) (i : ℕ) : List Member → ℕ
  | [] => lowest
  | m :: ms =>
      -- strict, so of equal ordinals the first keeps its place
      if m.ordinal < ordinal then lowestOrdinal i m.ordinal (i + 1) ms
      else lowestOrdinal lowest ordinal (i + 1) ms

/-- Rule 4: the remainder goes to the member with the lowest ordinal. -/
def addRemainder (remainder : Int64) (members : List Member) (amounts : List Int64) :
    List Int64 :=
  match members with
  -- not reached: a team without members is refused before the split
  | [] => amounts
  | m :: ms =>
      if remainder = 0 then amounts
      else amounts.modify (lowestOrdinal 0 m.ordinal 1 ms) (· + remainder)

/-- Rule 5: every member's amount is positive; the payout lines. -/
def payable (pos : Position) : List (Member × Int64) → Except AllocateFailure (List Winner)
  | [] => .ok []
  | (m, amount) :: rest => do
      ensure (0 < amount) (.allocation ⟨pos.place, some m.address, m.shareBasisPoints,
        ⟨"allocated amount %d is not payable at position amount %d",
          [.int amount.toInt, .int pos.amount.toInt]⟩⟩)
      let winners ← payable pos rest
      return ⟨pos.place, amount, m.address⟩ :: winners

/-- The payout lines of one position. -/
def allocatePosition (teamByPlace : List WinningTeam) (pos : Position) :
    Except AllocateFailure (List Winner) := do
  let team ← expect (teamByPlace.find? (·.place = pos.place))
    (.error ⟨"escrow: position %d has no winning team", [.int pos.place.toNat]⟩)
  ensure (team.members ≠ [])
    (.allocation ⟨pos.place, none, 0, ⟨"winning team has no members", []⟩⟩)
  let shareSum ← sumShares pos.place [] 0 team.members
  ensure (shareSum = totalShareBasisPoints) (.allocation ⟨pos.place, none, 0,
    ⟨"team shares sum to %d bp, want exactly %d", [.int shareSum.toInt, .int 10000]⟩⟩)
  let amounts := floors pos.amount team.members
  let remainder := pos.amount - amounts.sum
  payable pos (team.members.zip (addRemainder remainder team.members amounts))

def allocatePositions (teamByPlace : List WinningTeam) :
    List Position → Except AllocateFailure (List Winner)
  | [] => .ok []
  | pos :: rest => do
      let winners ← allocatePosition teamByPlace pos
      let others ← allocatePositions teamByPlace rest
      return winners ++ others

/-! ## The allocation -/

def allocateWinners (reward : Int64) (positions : List Position) (teams : List WinningTeam) :
    Except AllocateFailure (List Winner) := do
  ensure (positions ≠ []) (.error ⟨"escrow: no positions provided", []⟩)
  let positionSum ← sumPositions 0 positions
  ensure (positionSum = reward) (.error
    ⟨"escrow: sum of position amounts (%d) does not equal reward (%d)",
      [.int positionSum.toInt, .int reward.toInt]⟩)
  ensure (teams.length = positions.length) (.error
    ⟨"escrow: got %d winning teams for %d positions, want exactly one team per position",
      [.int teams.length, .int positions.length]⟩)
  let teamByPlace ← indexTeams [] teams
  let totalMembers := (teams.map (·.members.length)).sum
  ensure (totalMembers ≤ maxWinners) (.error
    ⟨"escrow: allocation would produce %d winners, exceeding the contract's MAX_WINNERS cap of %d",
      [.int totalMembers, .int maxWinners]⟩)
  let winners ← allocatePositions teamByPlace positions
  let total := (winners.map (·.amount)).sum
  ensure (total = reward) (.panicked
    ⟨"escrow: AllocateWinners invariant violated: sum of winner amounts (%d) != reward (%d)",
      [.int total.toInt, .int reward.toInt]⟩)
  return winners

end Service
