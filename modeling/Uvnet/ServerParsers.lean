import Uvnet.ServerRegistry
import Uvnet.ParserReuse

/- The parsers of the contexts.

   Whatever a `SessionCtx` has been used for, its parser is in step with some stream, or was
   never started and is not reading (`ParsersOk`). Every callback keeps this, so `recvdata`
   never stops a server but with an `int` out of range (`ParserOk.recv`). -/
namespace Uvnet
open CMachine ObjectPool StreamScan StepRun

namespace TCPServer

/-- The parser of a context is in step with some stream, or has never been started. -/
def ParserOk (env : Env) (head tail : UInt8) (c : SessionCtx) : Prop :=
  (∃ calls received, Synced env head tail c.packet calls received) ∨
    (c.packet = .new env ∧ c.tcpHandle ≠ .opened true)

def ParsersOk (env : Env) (s : TCPServer) : Prop :=
  ∀ (id : Nat) (c : SessionCtx), s.ctxs.cells[id]? = some c → ParserOk env s.packHead s.packTail c

section Parsers
variable {env : Env} {head tail : UInt8} {s s' : TCPServer} {id : Nat} {c c' : SessionCtx}

theorem ParserOk.keep (h : ParserOk env head tail c) (hp : c'.packet = c.packet)
    (hh : c'.tcpHandle = .opened true → c.tcpHandle = .opened true) : ParserOk env head tail c' := by
  rcases h with ⟨calls, received, hin⟩ | ⟨hnew, hno⟩
  · exact .inl ⟨calls, received, by rw [hp]; exact hin⟩
  · exact .inr ⟨by rw [hp]; exact hnew, fun hr => hno (hh hr)⟩

theorem ParserOk.reading (h : ParserOk env head tail c) (hr : c.tcpHandle = .opened true) :
    ∃ calls received, Synced env head tail c.packet calls received :=
  h.resolve_right fun hn => hn.2 hr

theorem ParserOk.start (h : ParserOk env head tail c) :
    ∃ calls received, Synced env head tail (c.packet.setPacketCB.start head tail) calls received := by
  rcases h with ⟨calls, received, hin⟩ | ⟨hnew, -⟩
  · exact ⟨calls, received, by rw [hin.sound.start_eq]; exact hin⟩
  · exact ⟨[], [], by rw [hnew]; exact started_synced env head tail⟩

/-- One chunk for a parser that is reading: the parser is in step again, or an `int` overflowed. -/
theorem ParserOk.recv (h : ParserOk env head tail c) (hr : c.tcpHandle = .opened true) {chunk : List UInt8}
    (hlen : chunk.length ≤ bufferSize) :
    (∃ r, recvdata env c.packet chunk = .ok r ∧ ParserOk env head tail { c with packet := r.sync }) ∨
      ∃ x, recvdata env c.packet chunk = .error (.intOverflow x) := by
  have hbs : bufferSize ≤ intMax := by decide
  obtain ⟨calls, received, hin⟩ := h.reading hr
  rcases recvdata_synced (Nat.le_trans hlen hbs) hin with ⟨r, hr, hin'⟩ | ⟨x, hx, -⟩
  · exact .inl ⟨r, hr, .inl ⟨_, _, hin'⟩⟩
  · exact .inr ⟨x, hx⟩

theorem ParsersOk.fetched (h : ParsersOk env s) (hc : (s.ctxs.fetch (.alloc env)).1.cells[id]? = some c) :
    ParserOk env s.packHead s.packTail c := by
  rcases Pool.fetch_lookup rfl hc with hc | rfl
  · exact h id c hc
  · exact .inr ⟨rfl, nofun⟩

theorem record_eq (s : TCPServer) (c : SessionCtx) (chunk : List UInt8) (calls : List FullPacket) :
    (s.record c chunk calls).ctxs = s.ctxs ∧ (s.record c chunk calls).packHead = s.packHead ∧
      (s.record c chunk calls).packTail = s.packTail := by
  unfold TCPServer.record
  split
  · exact ⟨rfl, rfl, rfl⟩
  split
  · exact ⟨rfl, rfl, rfl⟩
  · exact ⟨rfl, rfl, rfl⟩

theorem ParsersOk.set (h : ParsersOk env s) {j : Nat} {d : SessionCtx} (hd : (s.ctxs.cells.set id c')[j]? = some d)
    (hp : ParserOk env s.packHead s.packTail c') : ParserOk env s.packHead s.packTail d := by
  rcases Pool.getElem?_set_cases hd with ⟨-, rfl⟩ | ⟨-, hd⟩
  · exact hp
  · exact h j d hd

theorem ParsersOk.fetchSet (h : ParsersOk env s) {j : Nat} {d : SessionCtx}
    (hd : (s.fetchedWith env c').cells[j]? = some d) (hp : ParserOk env s.packHead s.packTail c') :
    ParserOk env s.packHead s.packTail d := by
  rcases Pool.getElem?_set_cases hd with ⟨-, rfl⟩ | ⟨-, hd⟩
  · exact hp
  · exact h.fetched hd

/-- **Every callback keeps the parsers in step.** -/
theorem ParsersOk.change (h : ParsersOk env s) {e : ServerEvent} (hc : Change env s e s') : ParsersOk env s' := by
  cases hc with
  | flags hf =>
    unfold ParsersOk
    rw [hf.ctxs, hf.packHead, hf.packTail]
    exact h
  | @received id c chunk r hc hh hlen hr =>
    have hp : ParserOk env s.packHead s.packTail { c with packet := r.sync } := by
      rcases (h id c hc).recv hh hlen with ⟨r', hr', hp⟩ | ⟨x, hx⟩
      · obtain rfl := Except.ok.inj (hr.symm.trans hr')
        exact hp
      · rw [hr] at hx
        cases hx
    obtain ⟨hctxs, hhead, htail⟩ := record_eq (s.setCtx id { c with packet := r.sync }) c chunk r.calls
    unfold ParsersOk
    rw [hctxs, hhead, htail]
    exact fun j d hd => h.set hd hp
  | initFailed hid hc =>
    intro j d hd
    rw [Pool.recycle_cells] at hd
    exact h.fetchSet hd ((h.fetched hc).keep rfl id)
  | acceptFailed hid hc hlt hfail =>
    intro j d hd
    rw [Pool.recycle_cells] at hd
    exact h.fetchSet hd ((h.fetched hc).keep rfl nofun)
  | readFailed hid hc => exact fun j d hd => h.fetchSet hd (.inl (h.fetched hc).start)
  | accepted hid hc hnew => exact fun j d hd => h.fetchSet hd (.inl (h.fetched hc).start)
  | closing hm hr hh => exact fun j d hd => h.set hd ((h _ _ hr.cell).keep rfl nofun)
  | closedAll he hhead htail havail hreleased hcells hobjs hsessions hsId hnotes =>
    intro j d hd
    rw [hcells, Option.map_eq_some_iff] at hd
    obtain ⟨c, hc, rfl⟩ := hd
    rw [hhead, htail]
    refine (h j c hc).keep ?_ ?_
    · unfold closedCell closedSession
      split <;> rfl
    · unfold closedCell closedSession closeWalk
      split
      · exact nofun
      · cases c.tcpHandle <;> exact nofun
  | forgotten hc hh => exact fun j d hd => h.set hd ((h _ _ hc).keep rfl nofun)
  | recycled hc hh =>
    intro j d hd
    rw [recycleOneCtx, Pool.recycle_cells] at hd
    exact h.set hd ((h _ _ hc).keep rfl nofun)
  | sessionClosed hm hr hh =>
    intro j d hd
    rw [Pool.recycle_cells] at hd
    exact h.set hd ((h _ _ hr.cell).keep rfl nofun)
  | stopped hraw => exact h

theorem start_parsers (env : Env) (head tail : UInt8) : ParsersOk env (TCPServer.start head tail) := by
  intro id c hc
  cases hc

end Parsers

end TCPServer

end Uvnet
