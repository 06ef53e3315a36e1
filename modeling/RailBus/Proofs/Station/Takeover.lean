import Mathlib
import RailBus.Proofs.Station.Keepalive
/-! # A discovered unit never takes over a live unit's slot

A slot is given out only when an echo completes the discovery of a serial. Handling any other
block is steady and reports no connection, so a block whose handling reports one is an echo: its
probe reads, the search takes it as the serial found, and the slot goes by the assignment the echo
makes once the block's sender, if it has one, is heard (`Station.dispatch_of_connected`).

That assignment spares live units (`Station.spares_of_assign`): the slot it gives is not live, or
it holds the serial already and was given out by discovery, or it carries serial 0, as a slot that
traffic revived does. The last case is a real one: a unit with serial 0 takes a slot that traffic
revived (`Station.assign_takes_revived_slot`). The main statement is
`Station.assign_spares_live_units`.
-/

namespace RailBus

namespace Station

variable {σ : Type}

/-- A steady change reports no connection. -/
theorem Steady.events_ne_connected {before after : Station σ} (steady : Steady before after)
    (unit : UInt8) (serial : UInt32) :
    after.events ≠ before.events ++ [.connected unit serial] := by
  intro given
  obtain ⟨raised, events, calm⟩ := steady.events
  rw [events, List.append_cancel_left_eq] at given
  have reported := calm (.connected unit serial) (by rw [given]; exact List.mem_singleton_self _)
  cases reported

/-- The connection an assignment reports names the serial it was given. -/
theorem serial_of_assign {station : Station σ} {serial reported : UInt32} {unit : UInt8}
    (given : (station.assign serial).events = station.events ++ [.connected unit reported]) :
    serial = reported := by
  rcases station.assign_cases serial with ⟨-, same⟩ | ⟨slot, -, assigned⟩
  · rw [same] at given
    simp at given
  · rw [assigned] at given
    simp only [Station.send, Station.emit, List.append_cancel_left_eq, List.cons.injEq,
      Event.connected.injEq, and_true] at given
    exact given.2

/-- **An echo whose handling reports a connection found the serial**: its probe reads, the
search takes it as found, and the slot goes by the assignment it makes. -/
theorem onEcho_of_connected {station : Station σ} {data : Vector UInt8 6} {unit : UInt8}
    {serial : UInt32}
    (given : (station.onEcho data).events = station.events ++ [.connected unit serial]) :
    ∃ probe, Probe.ofData? data = some probe ∧ (station.discovery.echo probe).1 = .found serial ∧
      station.onEcho data =
        { station with discovery := (station.discovery.echo probe).2 }.assign serial := by
  rcases station.onEcho_cases data with
    same | ⟨probe, read, ⟨-, moved⟩ | ⟨-, moved⟩ | ⟨found, echoed, moved⟩⟩
  -- the echoes that give no slot leave the reports as they are
  · rw [same] at given
    simp at given
  · rw [moved] at given
    simp at given
  · rw [moved] at given
    simp at given
  · rw [moved] at given
    have named : found = serial := serial_of_assign given
    rw [named] at echoed moved
    exact ⟨probe, read, echoed, moved⟩

theorem discovery_hear {station : Station σ} (block : Block) :
    (station.hear block).discovery = station.discovery := by
  unfold hear
  split <;> rfl

theorem honest_hear {station : Station σ} (honest : station.table.Honest) (block : Block) :
    (station.hear block).table.Honest := by
  unfold hear
  split
  · exact honest.touch _
  · exact honest

variable [Layout σ]

/-- **What handling a block can do**, seen from the reports: it takes the block as an echo once
its sender is heard, or it is steady. -/
theorem dispatch_echo_or_steady (station : Station σ) (block : Block) :
    station.dispatch block = (station.hear block).onEcho block.data ∨
      Steady (station.hear block) (station.dispatch block) := by
  unfold dispatch hear
  cases block.unit? with
  | none =>
    dsimp only
    split
    · exact .inl rfl
    · exact .inr (.refl station)
  | some unit =>
    dsimp only
    cases UnitRequest.ofCode? block.command with
    | none => exact .inr (.refl _)
    | some request =>
      -- hearing the sender makes its slot live, so every request but an echo is steady
      rcases (station.touchUnit unit).handle_steady (station.table.isAlive_touch unit) request
          block.data with ⟨-, echo⟩ | steady
      · exact .inl echo
      · exact .inr steady

/-- **A block whose handling reports a connection is an echo that found the serial**, and the
slot goes by the assignment it makes once the block's sender is heard. -/
theorem dispatch_of_connected {station : Station σ} {block : Block} {unit : UInt8}
    {serial : UInt32}
    (given : (station.dispatch block).events = station.events ++ [.connected unit serial]) :
    ∃ probe, Probe.ofData? block.data = some probe ∧
      (station.discovery.echo probe).1 = .found serial ∧
      station.dispatch block =
        { station.hear block with discovery := (station.discovery.echo probe).2 }.assign serial := by
  have heard : (station.hear block).discovery = station.discovery := discovery_hear block
  have heardEvents : (station.hear block).events = station.events := events_hear block
  rw [← heardEvents] at given
  rcases station.dispatch_echo_or_steady block with echo | steady
  · rw [echo] at given ⊢
    rw [← heard]
    exact onEcho_of_connected given
  · exact absurd given (steady.events_ne_connected unit serial)

/-- **A discovered unit never takes over another unit's slot.** In every station met while a turn
handles its received blocks, the slot an assignment gives a serial is not live, or is live with
that same serial; and a live slot discovery did not give out goes only to serial 0, the serial
such a slot carries. So when handling a block gives a slot to a serial, the block is an echo that
the search took as that serial found, and the slot is one of these in the table as the echo left
it, its sender heard. -/
theorem assign_spares_live_units {station : Station σ} (handling : station.Handling)
    {serial : UInt32} {unit : UInt8} :
    ((station.assign serial).events = station.events ++ [.connected unit serial] →
      (station.table.lookup unit).isAlive = false ∨
        ((station.table.lookup unit).serial = serial ∧
          ((station.table.lookup unit).assigned = true ∨ serial = 0))) ∧
    ∀ block : Block,
      (station.dispatch block).events = station.events ++ [.connected unit serial] →
      (∃ probe, Probe.ofData? block.data = some probe ∧
        (station.discovery.echo probe).1 = .found serial) ∧
      (((station.hear block).table.lookup unit).isAlive = false ∨
        (((station.hear block).table.lookup unit).serial = serial ∧
          (((station.hear block).table.lookup unit).assigned = true ∨ serial = 0))) := by
  have honest := handling.honest
  refine ⟨spares_of_assign honest, fun block given => ?_⟩
  obtain ⟨probe, read, found, assigned⟩ := dispatch_of_connected given
  refine ⟨⟨probe, read, found⟩, ?_⟩
  -- the echo assigns on the table as its sender left it, which is honest too
  have heardHonest : ({ station.hear block with
      discovery := (station.discovery.echo probe).2 } : Station σ).table.Honest :=
    honest_hear honest block
  have heardEvents : (station.hear block).events = station.events := events_hear block
  rw [assigned, ← heardEvents] at given
  exact spares_of_assign heardHonest given

/-- A fresh station hears the echoes of the probes that walk the search down to serial 0: the
fourth names that serial, and handling it gives serial 0 the first slot, which is not live. -/
theorem assign_spares_live_units_new :
    let searched := [Block.broadcast Code.probe (dataOf [0]), Block.broadcast Code.probe (dataOf [1]),
      Block.broadcast Code.probe (dataOf [2])].foldl dispatch (Station.new ({} : Store) {})
    let found := Block.broadcast Code.probe (dataOf [3])
    searched.Handling ∧ (searched.dispatch found).events = searched.events ++ [.connected 0 0] ∧
      (∃ probe, Probe.ofData? found.data = some probe ∧
        (searched.discovery.echo probe).1 = .found 0) ∧
      (((searched.hear found).table.lookup 0).isAlive = false ∨
        (((searched.hear found).table.lookup 0).serial = 0 ∧
          (((searched.hear found).table.lookup 0).assigned = true ∨ (0 : UInt32) = 0))) := by
  intro searched found
  have handling : searched.Handling := by
    simp only [searched, List.foldl]
    exact .dispatch _ (.dispatch _ (.dispatch _ (.new _ _)))
  have given : (searched.dispatch found).events = searched.events ++ [.connected 0 0] := by decide
  exact ⟨handling, given, (assign_spares_live_units handling).2 found given⟩

/-- **A unit with serial 0 takes a slot that traffic revived.** A block from slot 0 revives it
with no serial; echoes walk the search down to serial 0, and the fourth echo gives that serial
slot 0, live, though discovery never gave it out. -/
theorem assign_takes_revived_slot :
    let revived := [Block.toUnit 0 Code.ping (dataOf []), Block.broadcast Code.probe (dataOf [0]),
      Block.broadcast Code.probe (dataOf [1]), Block.broadcast Code.probe (dataOf [2])].foldl
        dispatch (Station.new ({} : Store) {})
    revived.Handling ∧ (revived.assign 0).events = revived.events ++ [.connected 0 0] ∧
      (revived.dispatch (Block.broadcast Code.probe (dataOf [3]))).events =
        revived.events ++ [.connected 0 0] ∧
      (revived.table.lookup 0).isAlive = true ∧ (revived.table.lookup 0).assigned = false := by
  dsimp only [List.foldl]
  refine ⟨.dispatch _ (.dispatch _ (.dispatch _ (.dispatch _ (.new ({} : Store) {})))), ?_, ?_, ?_,
    ?_⟩
  all_goals decide

end Station

end RailBus
