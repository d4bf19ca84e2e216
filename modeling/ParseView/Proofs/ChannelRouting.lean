import ParseView.Proofs.TableGeometry
import ParseView.Proofs.TokenDumps

/-! The name of a token is shown under the column of its channel. A channel table is refused if it
sends a channel to a column without a name, so no name falls off the end of a row. -/

namespace ParseView

namespace Channels

structure FirstUnnamed (names : List String) (columns : List (Option Nat))
    (fault : ChannelFault) : Prop where
  sent : columns[fault.channel]? = some (some fault.column)
  unnamed : names.length ≤ fault.column
  earlier : ∀ channel < fault.channel, ∀ column, columns[channel]? = some (some column) →
    column < names.length
  nameCount : fault.nameCount = names.length

theorem FirstUnnamed.channel_le {names : List String} {columns : List (Option Nat)}
    {fault other : ChannelFault} (first : FirstUnnamed names columns fault)
    (second : FirstUnnamed names columns other) : fault.channel ≤ other.channel := by
  by_contra later
  have below := first.earlier other.channel (by omega) other.column second.sent
  have unnamed := second.unnamed
  omega

theorem FirstUnnamed.unique {names : List String} {columns : List (Option Nat)}
    {fault other : ChannelFault} (first : FirstUnnamed names columns fault)
    (second : FirstUnnamed names columns other) : fault = other := by
  have channel : fault.channel = other.channel :=
    Nat.le_antisymm (first.channel_le second) (second.channel_le first)
  have column : fault.column = other.column := by
    have sent := first.sent
    rw [channel, second.sent] at sent
    simpa using sent.symm
  have nameCount : fault.nameCount = other.nameCount := by
    rw [first.nameCount, second.nameCount]
  rw [ChannelFault.mk.injEq]
  exact ⟨channel, column, nameCount⟩

end Channels

namespace TokenDump

end TokenDump

namespace TokenTable

variable (table : TokenTable) (index : Nat) (token : Token)

end TokenTable

end ParseView
