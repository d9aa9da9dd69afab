import HyperBox.PageTable.Isolation

/-! What a call of `hb_sync_page_table` does to the translation of all addresses, from any state
that duplication and earlier calls lead to: the exact conditions under which it maps only what
one of the two sides had, and under which it leaves Hyper-box's own addresses alone. -/
namespace HyperBox.PageTable
open HyperBox.Library

section Translations
variable {env : SyncEnv} {s : HostTables} {addr cr3 : U64} {syncDirectMapping : Bool}

/-- Every leaf that the call makes up or loses is one that the host or the guest had. -/
def BuildsKnownLeaves (env : SyncEnv) (s : HostTables) (addr cr3 : U64) (syncDirectMapping : Bool) : Prop :=
  ∀ v, (callEffect env s addr cr3 syncDirectMapping v = .drop →
      hostLeaf env s v = none ∨ guestLeaf s cr3 v = none) ∧
    (callEffect env s addr cr3 syncDirectMapping v = .spread →
      hostLeaf env s v = some (spreadLeaf (guestEntry s addr cr3) v) ∨
        guestLeaf s cr3 v = some (spreadLeaf (guestEntry s addr cr3) v))

structure OwnAreas where
  moduleCore : U64 × U64
  exitStacks : List (U64 × U64)
  taskPool : U64 × U64

def OwnAreas.Contains (areas : OwnAreas) (v : U64) : Prop :=
  ∃ area ∈ areas.moduleCore :: areas.taskPool :: areas.exitStacks, area.1 ≤ v ∧ v < area.1 + area.2

/-- The leaf of `v` lies off the entries that the call replaces, or is replaced by itself. -/
def KeepsLeaf (env : SyncEnv) (s : HostTables) (addr cr3 : U64) (syncDirectMapping : Bool) (v : U64) : Prop :=
  match callEffect env s addr cr3 syncDirectMapping v with
  | .keep => True
  | .copy => guestLeaf s cr3 v = hostLeaf env s v
  | .drop => hostLeaf env s v = none
  | .spread => hostLeaf env s v = some (spreadLeaf (guestEntry s addr cr3) v)

end Translations

end HyperBox.PageTable
