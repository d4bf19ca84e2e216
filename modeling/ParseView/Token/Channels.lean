/-! Channels of a token stream: their display names, one per table column, and the column that
each channel is shown under. -/

namespace ParseView

/-- Every column that a channel is shown under has a name. -/
structure Channels where
  names : List String
  columns : List (Option Nat)
  column_lt : ∀ column, some column ∈ columns → column < names.length

structure ChannelFault where
  channel : Nat
  column : Nat
  nameCount : Nat
deriving DecidableEq, Repr

namespace ChannelFault

def message (fault : ChannelFault) : String :=
  "channel " ++ toString fault.channel ++ " maps to column " ++ toString fault.column ++
    ", but only " ++ toString fault.nameCount ++ " channel names are defined"

end ChannelFault

namespace Channels

def firstFault? (nameCount : Nat) (channel : Nat) : List (Option Nat) → Option ChannelFault
  | [] => none
  | none :: rest => firstFault? nameCount (channel + 1) rest
  | some column :: rest =>
      if column < nameCount then firstFault? nameCount (channel + 1) rest
      else some ⟨channel, column, nameCount⟩

theorem firstFault?_eq_none (nameCount channel : Nat) (columns : List (Option Nat)) :
    firstFault? nameCount channel columns = none ↔
      ∀ column, some column ∈ columns → column < nameCount := by
  induction columns generalizing channel with
  | nil => simp [firstFault?]
  | cons entry rest ih =>
      cases entry with
      | none => simp [firstFault?, ih]
      | some column =>
          simp only [firstFault?]
          by_cases named : column < nameCount
          · simp [named, ih]
          · simp [named]

def ofNames (names : List String) (columns : List (Option Nat)) : Except ChannelFault Channels :=
  match found : firstFault? names.length 0 columns with
  | some fault => .error fault
  | none => .ok ⟨names, columns, (firstFault?_eq_none names.length 0 columns).mp found⟩

theorem ofNames_eq_ok_iff (names : List String) (columns : List (Option Nat))
    (channels : Channels) :
    ofNames names columns = .ok channels ↔ channels.names = names ∧ channels.columns = columns := by
  obtain ⟨givenNames, givenColumns, named⟩ := channels
  unfold ofNames
  split
  case h_1 fault found =>
    refine iff_of_false nofun ?_
    rintro ⟨rfl, rfl⟩
    rw [(firstFault?_eq_none _ 0 _).mpr named] at found
    exact nomatch found
  case h_2 found =>
    rw [Except.ok.injEq, Channels.mk.injEq]
    exact and_congr eq_comm eq_comm

def standard : Channels where
  names := ["DEFAULT", "HIDDEN"]
  columns := [some 0, some 1]
  column_lt := by simp

instance : Inhabited Channels := ⟨standard⟩

def count (channels : Channels) : Nat := channels.names.length

def column (channels : Channels) (channel : UInt32) : Option Nat :=
  (channels.columns[channel.toNat]?).join

end Channels

end ParseView
