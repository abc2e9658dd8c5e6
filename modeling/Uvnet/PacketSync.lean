import Uvnet.CMachine
import Uvnet.NetBase

/- `PacketSync` of `packet_sync.h`: the receive-side parser, and `PacketData`,
   the encoder it undoes.

   The parser keeps two heap buffers, a count of valid bytes, a saved head
   position and a two-valued parse state across calls. `recvdata` is its loop;
   one iteration is `recvStep`, cut where the source has a comment: filling the
   scratch buffer (`fill`), looking for a head and its header (`parseHead`),
   collecting the payload (`collect`), and checking, rolling back or delivering
   (`checkFrame`, `rollback`, `deliver`).

   Signed arithmetic goes through `cint`; comparisons and sums that the source
   makes with `sizeof(NetPacket)` or `uv_buf_t::len` are in `size_t`, with the
   conversions written out. The log lines are not modelled. -/
namespace Uvnet
open CMachine

/-- `BUFFER_SIZE`. -/
def bufferSize : Nat := 1024 * 10

/-- `MAXLISTSIZE`, of the free lists in `tcpserver.cpp` and `tcpclient.cpp`. -/
def maxListSize : Nat := 20

/-- What the source takes from its host: the byte order, the digest function, and
the bytes a fresh allocation happens to hold. -/
structure Env where
  endian : Endian
  md5 : List UInt8 → Vector UInt8 16
  fresh : Nat → UInt8

/-- `uv_buf_t`. -/
structure UvBuf where
  base : List UInt8
  len : Nat

inductive ParseType where
  | parseHead
  | parseNothing
  deriving DecidableEq, Repr

/-- The state of a `PacketSync`; `packetCb` says whether a callback is set. -/
structure PacketSync where
  packetCb : Bool
  parsetype : ParseType
  getdatalen : Int
  threadReaddata : UvBuf
  threadPacketdata : UvBuf
  truepacketlen : Int
  headpos : Int
  head : UInt8
  tail : UInt8
  theNexPacket : NetPacket

/-- `malloc(BUFFER_SIZE)` with its `uv_buf_init`. -/
def Env.buffer (env : Env) : UvBuf := ⟨(List.range bufferSize).map env.fresh, bufferSize⟩

/-- `PacketSync::PacketSync`. The header and the delimiters are unset until used. -/
def PacketSync.new (env : Env) : PacketSync where
  packetCb := false
  parsetype := .parseNothing
  getdatalen := 0
  threadReaddata := env.buffer
  threadPacketdata := env.buffer
  truepacketlen := 0
  headpos := -1
  head := 0
  tail := 0
  theNexPacket := ⟨0, 0, 0, Vector.replicate 16 0, 0, 0, 0⟩

/-- `PacketSync::SetPacketCB`. -/
def PacketSync.setPacketCB (s : PacketSync) : PacketSync := { s with packetCb := true }

/-- `PacketSync::Start`. -/
def PacketSync.start (s : PacketSync) (packhead packtail : UInt8) : PacketSync :=
  { s with head := packhead, tail := packtail }

/-- A fresh parser with its callback set, started with the two delimiters. -/
def started (env : Env) (packhead packtail : UInt8) : PacketSync :=
  ((PacketSync.new env).setPacketCB).start packhead packtail

/-- A fresh parser started with the two delimiters, its callback set or not. -/
def startedWith (env : Env) : Bool → UInt8 → UInt8 → PacketSync
  | true, packhead, packtail => started env packhead packtail
  | false, packhead, packtail => (PacketSync.new env).start packhead packtail

/-- The arguments of one call of `packet_cb_`: the header, and the whole buffer
its `packetdata` points into. -/
structure FullPacket where
  packethead : NetPacket
  packetdata : List UInt8

/-- The locals of a `recvdata` call, with the callbacks it has made so far. -/
structure Recv where
  sync : PacketSync
  iret : Int
  calls : List FullPacket

/-- How a block of the loop body ends: `continue`, `return`, or on to the next block. -/
inductive Flow where
  | again (c : Recv)
  | ret (c : Recv)
  | go (c : Recv)

/-- A plain `char` compared with an `unsigned char`: both are promoted to `int`. -/
def charEq (c u : UInt8) : Bool := (schar c).toInt == (u.toNat : Int)

/-- `theNexPacket.datalen` as an `int`. -/
def NetPacket.len (p : NetPacket) : Int := p.datalen.toInt

/-! The blocks of the loop body. -/

/-- Top of the `PARSE_NOTHING` block: move what fits of the chunk behind the valid bytes. -/
def fill (data : List UInt8) (c : Recv) : C Recv := do
  let s := c.sync
  let space := sizeSub s.threadReaddata.len (toSize s.truepacketlen)
  let left ← cint (data.length - c.iret)
  if toSize left ≤ space then
    let base ← memcpy s.threadReaddata.base s.truepacketlen data c.iret (toSize left)
    let n ← cint (s.truepacketlen + left)
    return { c with
      sync := { s with threadReaddata := { s.threadReaddata with base := base }, truepacketlen := n }
      iret := data.length }
  else
    let base ← memcpy s.threadReaddata.base s.truepacketlen data c.iret space
    return { c with
      sync := { s with
        threadReaddata := { s.threadReaddata with base := base }
        truepacketlen := toInt s.threadReaddata.len }
      iret := toInt (sizeAdd (toSize c.iret) space) }

/-- `truepacketlen - headpos - 1`. -/
def afterHead (s : PacketSync) : C Int := do
  let n ← cint (s.truepacketlen - s.headpos)
  cint (n - 1)

/-- Forget everything up to and including the byte at `headpos`. -/
def dropHead (s : PacketSync) : C PacketSync := do
  let after ← afterHead s
  let base ← memcpy s.threadReaddata.base 0 s.threadReaddata.base (s.headpos + 1) (toSize after)
  let k ← cint (s.headpos + 1)
  let n ← cint (s.truepacketlen - k)
  return { s with threadReaddata := { s.threadReaddata with base := base }, truepacketlen := n }

/-- The packet buffer, grown when payload and tail do not fit. -/
def growPacketdata (env : Env) (buf : UvBuf) (p : NetPacket) : C UvBuf :=
  if buf.len < sizeAdd (toSize p.len) 1 then do
    let n ← cint (p.len + 1)
    let base ← realloc env.fresh buf.base (p.len + 1) (toSize n)
    return ⟨base, toSize n⟩
  else return buf

/-- `if (getdatalen > 0) memcpy(...)`: payload bytes the scratch buffer already has. -/
def takeAhead (s : PacketSync) (dst : List UInt8) (got : Int) : C (List UInt8) :=
  if 0 < got then
    memcpy dst 0 s.threadReaddata.base (s.headpos + 1 + netPackageHeadlen) (toSize got)
  else return dst

/-- `theNexPacket` is accepted: state `PARSE_HEAD`, and take what the scratch buffer has of it. -/
def acceptHead (env : Env) (c : Recv) (p : NetPacket) : C Flow := do
  let s := c.sync
  let buf ← growPacketdata env s.threadPacketdata p
  let after ← afterHead s
  let n ← cint (p.len + 1)
  let got := min (toInt (sizeSub (toSize after) netPackageHeadlen)) n
  let base ← takeAhead s buf.base got
  return .go { c with sync := { s with
    parsetype := .parseHead
    theNexPacket := p
    threadPacketdata := { buf with base := base }
    getdatalen := got } }

/-- The `PARSE_NOTHING` block: find the head byte and decode the header behind it. -/
def parseHeadWith (decode : List UInt8 → C NetPacket) (env : Env) (data : List UInt8) (c : Recv) : C Flow := do
  let c ← fill data c
  let s := c.sync
  match ← memchr s.threadReaddata.base s.head (toSize s.truepacketlen) with
  | none => return .again { c with sync := { s with truepacketlen := 0 } }
  | some pos =>
    let s := { s with headpos := toInt pos }
    let after ← afterHead s
    if toSize after < netPackageHeadlen then
      if s.headpos ≠ 0 then
        let n ← cint (s.truepacketlen - s.headpos)
        let base ← memcpy s.threadReaddata.base 0 s.threadReaddata.base s.headpos (toSize n)
        return .again { c with sync := { s with
          threadReaddata := { s.threadReaddata with base := base }, truepacketlen := n } }
      else return .again { c with sync := s }
    else
      let chars ← memRead s.threadReaddata.base (s.headpos + 1) netPackageHeadlen
      let p ← decode chars
      if p.header ≠ s.head ∨ p.tail ≠ s.tail ∨ p.len < 0 then
        let s ← dropHead { s with theNexPacket := p }
        return .again { c with sync := s }
      else acceptHead env { c with sync := s } p

/-- With the header that gcc's code gets. -/
def parseHead (env : Env) (data : List UInt8) (c : Recv) : C Flow :=
  parseHeadWith (fun chars => return charToNetPacket env.endian chars) env data c

/-- Whether the scratch buffer holds the whole frame at `headpos`:
    `truepacketlen - headpos - 1 - NET_PACKAGE_HEADLEN >= theNexPacket.datalen + 1`. -/
def inReaddata (s : PacketSync) : C Bool := do
  let after ← afterHead s
  let n ← cint (s.theNexPacket.len + 1)
  return decide (toSize n ≤ sizeSub (toSize after) netPackageHeadlen)

/-- The scratch buffer, grown when header, payload and tail do not fit. -/
def growReaddata (env : Env) (buf : UvBuf) (want : Int) (size : Nat) : C UvBuf :=
  if buf.len < size then do
    let base ← realloc env.fresh buf.base want size
    return ⟨base, size⟩
  else return buf

/-- A rejected frame: every byte after its head goes back into the scratch buffer.
    The source has this block twice, for the tail and for the checksum. -/
def rollback (env : Env) (s : PacketSync) : C PacketSync := do
  if ← inReaddata s then
    let s ← dropHead s
    return { s with parsetype := .parseNothing }
  else
    let buf ← growReaddata env s.threadReaddata (netPackageHeadlen + s.theNexPacket.len + 1)
      (sizeAdd (sizeAdd netPackageHeadlen (toSize s.theNexPacket.len)) 1)
    let base ← memcpy buf.base 0 buf.base (s.headpos + 1) netPackageHeadlen
    let n ← cint (s.theNexPacket.len + 1)
    let base ← memcpy base netPackageHeadlen s.threadPacketdata.base 0 (toSize n)
    let m ← cint (netPackageHeadlen + n)
    return { s with
      parsetype := .parseNothing
      threadReaddata := { buf with base := base }
      truepacketlen := m }

/-- Keep what follows an intact frame in the scratch buffer. -/
def keepFollowing (s : PacketSync) : C PacketSync := do
  if ← inReaddata s then
    let frameEnd := sizeAdd (sizeAdd (sizeAdd (toSize s.headpos) netPackageHeadlen)
      (toSize s.theNexPacket.len)) 2
    let n := sizeSub (toSize s.truepacketlen) frameEnd
    let base ← memcpy s.threadReaddata.base 0 s.threadReaddata.base
      (s.headpos + netPackageHeadlen + s.theNexPacket.len + 2) n
    return { s with threadReaddata := { s.threadReaddata with base := base }, truepacketlen := toInt n }
  else return { s with truepacketlen := 0 }

/-- An intact frame goes to the callback. -/
def deliver (c : Recv) : C Flow := do
  let s ← keepFollowing c.sync
  let calls := if s.packetCb then [⟨s.theNexPacket, s.threadPacketdata.base⟩] else []
  return .again { c with sync := { s with parsetype := .parseNothing }, calls := c.calls ++ calls }

/-- The digest `recvdata` compares with: the empty payload's is all zero. -/
def payloadMd5 (env : Env) (s : PacketSync) : C (Vector UInt8 16) :=
  if s.theNexPacket.len = 0 then return Vector.replicate 16 0
  else do
    let payload ← memRead s.threadPacketdata.base 0 (toSize s.theNexPacket.len)
    return env.md5 payload

/-- A frame is complete: check its last byte and its digest. -/
def checkFrame (env : Env) (c : Recv) : C Flow := do
  let s := c.sync
  let last ← memRead s.threadPacketdata.base s.theNexPacket.len 1
  if ¬ charEq (last.headD 0) s.tail then
    let s ← rollback env s
    return .again { c with sync := s }
  else
    let md5str ← payloadMd5 env s
    if s.theNexPacket.check ≠ md5str then
      let s ← rollback env s
      return .again { c with sync := s }
    else deliver c

/-- A header is known: collect payload and tail from the chunk. -/
def collect (env : Env) (data : List UInt8) (c : Recv) : C Flow := do
  let s := c.sync
  let n ← cint (s.theNexPacket.len + 1)
  if s.getdatalen < n then
    let left ← cint (data.length - c.iret)
    let sum ← cint (s.getdatalen + left)
    if sum < n then
      let base ← memcpy s.threadPacketdata.base s.getdatalen data c.iret (toSize left)
      return .ret { c with
        sync := { s with threadPacketdata := { s.threadPacketdata with base := base }, getdatalen := sum }
        iret := data.length }
    else
      let need ← cint (n - s.getdatalen)
      let base ← memcpy s.threadPacketdata.base s.getdatalen data c.iret (toSize need)
      let iret ← cint (c.iret + need)
      checkFrame env { c with
        sync := { s with threadPacketdata := { s.threadPacketdata with base := base }, getdatalen := n }
        iret := iret }
  else checkFrame env c

/-! The loop. -/

/-- One pass through the loop body. -/
def recvStep (env : Env) (data : List UInt8) (c : Recv) : C Flow :=
  match c.sync.parsetype with
  | .parseHead => collect env data c
  | .parseNothing => do
    match ← parseHead env data c with
    | .go c => collect env data c
    | flow => return flow

/-- The loop condition: `iret < len || truepacketlen >= NET_PACKAGE_HEADLEN + 2`. -/
def recvMore (data : List UInt8) (c : Recv) : Bool :=
  decide (c.iret < data.length) || decide (sizeAdd netPackageHeadlen 2 ≤ toSize c.sync.truepacketlen)

def recvLoop (env : Env) (data : List UInt8) : Nat → Recv → C Recv
  | 0, _ => .error .outOfFuel
  | fuel + 1, c =>
    if recvMore data c then do
      match ← recvStep env data c with
      | .again c => recvLoop env data fuel c
      | .ret c => return c
      | .go c => return c
    else return c

/-- `PacketSync::recvdata` on a chunk of `len = data.length` bytes. Every pass uses up a
byte held or unread, so this much fuel is enough (`recvLoop_ok`). -/
def recvdata (env : Env) (s : PacketSync) (data : List UInt8) : C Recv :=
  recvLoop env data ((s.truepacketlen + s.getdatalen).toNat + data.length + 2) ⟨s, 0, []⟩

/-- Successive calls of `recvdata`: the final state and every callback made. -/
def recvCalls (env : Env) (s : PacketSync) : List (List UInt8) → C (PacketSync × List FullPacket)
  | [] => return (s, [])
  | data :: rest => do
    let c ← recvdata env s data
    let (s', calls) ← recvCalls env c.sync rest
    return (s', c.calls ++ calls)

/-! Cuts of a pass: what it computes up to a decision, so that the state there can be
spoken of (`recvStep_toCheck` puts a pass together again). -/

/-- The header that the pass accepts: the loop body up to the validity test. -/
def acceptedHeader (env : Env) (data : List UInt8) (c : Recv) : C (Option NetPacket) :=
  match c.sync.parsetype with
  | .parseHead => return none
  | .parseNothing => do
    let c ← fill data c
    let s := c.sync
    match ← memchr s.threadReaddata.base s.head (toSize s.truepacketlen) with
    | none => return none
    | some pos =>
      let s := { s with headpos := toInt pos }
      let after ← afterHead s
      if toSize after < netPackageHeadlen then return none
      else
        let chars ← memRead s.threadReaddata.base (s.headpos + 1) netPackageHeadlen
        let p := charToNetPacket env.endian chars
        if p.header ≠ s.head ∨ p.tail ≠ s.tail ∨ p.len < 0 then return none else return some p

/-- `collect` up to the checks; a complete frame is left to them as `.go`. -/
def gather (data : List UInt8) (c : Recv) : C Flow := do
  let s := c.sync
  let n ← cint (s.theNexPacket.len + 1)
  if s.getdatalen < n then
    let left ← cint (data.length - c.iret)
    let sum ← cint (s.getdatalen + left)
    if sum < n then
      let base ← memcpy s.threadPacketdata.base s.getdatalen data c.iret (toSize left)
      return .ret { c with
        sync := { s with threadPacketdata := { s.threadPacketdata with base := base }, getdatalen := sum }
        iret := data.length }
    else
      let need ← cint (n - s.getdatalen)
      let base ← memcpy s.threadPacketdata.base s.getdatalen data c.iret (toSize need)
      let iret ← cint (c.iret + need)
      return .go { c with
        sync := { s with threadPacketdata := { s.threadPacketdata with base := base }, getdatalen := n }
        iret := iret }
  else return .go c

/-- One pass through the loop body up to the checks. -/
def toCheck (env : Env) (data : List UInt8) (c : Recv) : C Flow :=
  match c.sync.parsetype with
  | .parseHead => gather data c
  | .parseNothing => do
    match ← parseHead env data c with
    | .go c => gather data c
    | flow => return flow

/-- The rest of the pass: the checks, where a frame is complete. -/
def finish (env : Env) : Flow → C Flow
  | .go c => checkFrame env c
  | flow => return flow

/-- The two checks: the last byte, then the digest. -/
def frameOk (env : Env) (s : PacketSync) : C Bool := do
  let last ← memRead s.threadPacketdata.base s.theNexPacket.len 1
  if ¬ charEq (last.headD 0) s.tail then return false
  else
    let md5str ← payloadMd5 env s
    return decide (s.theNexPacket.check = md5str)

theorem collect_gather (env : Env) (data : List UInt8) (c : Recv) :
    collect env data c = gather data c >>= finish env := by
  simp only [collect, gather]
  cases cint (c.sync.theNexPacket.len + 1) with
  | error e => rfl
  | ok n =>
    simp only [ok_bind]
    split
    · cases cint (data.length - c.iret) with
      | error e => rfl
      | ok left =>
        simp only [ok_bind]
        cases cint (c.sync.getdatalen + left) with
        | error e => rfl
        | ok sum =>
          simp only [ok_bind]
          split
          · cases memcpy c.sync.threadPacketdata.base c.sync.getdatalen data c.iret (toSize left) <;> rfl
          · cases cint (n - c.sync.getdatalen) with
            | error e => rfl
            | ok need =>
              simp only [ok_bind]
              cases memcpy c.sync.threadPacketdata.base c.sync.getdatalen data c.iret (toSize need) with
              | error e => rfl
              | ok base =>
                simp only [ok_bind]
                cases cint (c.iret + need) <;> rfl
    · rfl

theorem parseHead_of_accepted {env : Env} {data : List UInt8} {c : Recv} {p : NetPacket}
    (h : acceptedHeader env data c = .ok (some p)) :
    c.sync.parsetype = .parseNothing ∧ ∃ d, parseHead env data c = acceptHead env d p := by
  rw [acceptedHeader] at h
  split at h
  · cases h
  · next hi =>
    refine ⟨hi, ?_⟩
    obtain ⟨c₁, hfill, h⟩ := bind_eq_ok.1 h
    obtain ⟨found, hchr, h⟩ := bind_eq_ok.1 h
    rw [parseHead, parseHeadWith, hfill, ok_bind]
    simp only [hchr, ok_bind]
    split at h
    · cases h
    · obtain ⟨after, hafter, h⟩ := bind_eq_ok.1 h
      simp only [hafter, ok_bind]
      split at h
      · cases h
      · next hlong =>
        obtain ⟨chars, hread, h⟩ := bind_eq_ok.1 h
        simp only [if_neg hlong, hread, ok_bind, pure_ok]
        dsimp only at h
        split at h
        · cases h
        · next hvalid =>
          obtain rfl := Option.some.inj (Except.ok.inj h)
          exact ⟨_, if_neg hvalid⟩

theorem acceptHead_ne_again {env : Env} {c d : Recv} {p : NetPacket} :
    acceptHead env c p ≠ .ok (.again d) := by
  intro h
  obtain ⟨buf, -, h⟩ := bind_eq_ok.1 h
  obtain ⟨after, -, h⟩ := bind_eq_ok.1 h
  obtain ⟨n, -, h⟩ := bind_eq_ok.1 h
  obtain ⟨base, -, h⟩ := bind_eq_ok.1 h
  cases h

theorem recvStep_toCheck (env : Env) (data : List UInt8) (c : Recv) :
    recvStep env data c = toCheck env data c >>= finish env := by
  rw [recvStep, toCheck]
  cases c.sync.parsetype with
  | parseHead => exact collect_gather env data c
  | parseNothing =>
    cases parseHead env data c with
    | error e => rfl
    | ok flow =>
      cases flow with
      | again d => rfl
      | ret d => rfl
      | go d => exact collect_gather env data d

/-- A frame that passes both checks is delivered, any other is rolled back. -/
theorem checkFrame_frameOk (env : Env) (c : Recv) :
    checkFrame env c = frameOk env c.sync >>= fun ok => if ok then deliver c else
      rollback env c.sync >>= fun s => .ok (.again { c with sync := s }) := by
  simp only [checkFrame, frameOk]
  cases memRead c.sync.threadPacketdata.base c.sync.theNexPacket.len 1 with
  | error e => rfl
  | ok last =>
    simp only [ok_bind]
    split
    · rfl
    · cases payloadMd5 env c.sync with
      | error e => rfl
      | ok md5str =>
        simp only [ok_bind, pure_ok]
        split
        · next h => rw [decide_eq_false h]; rfl
        · next h => rw [decide_eq_true (not_not.1 h)]; rfl

/-! The encoder. -/

/-- `PacketData`: fills in the checksum of `packet` and returns it with the frame's bytes.
A null `data` is `none`. -/
def packetData (env : Env) (packet : NetPacket) (data : Option (List UInt8)) :
    C (NetPacket × List UInt8) := do
  let payload ← memRead (data.getD []) 0 (toSize packet.len)
  let check := if packet.len = 0 ∨ data = none then Vector.replicate 16 0 else env.md5 payload
  let packet := { packet with check := check }
  return (packet, [packet.header] ++ netPacketToChar env.endian packet ++ payload ++ [packet.tail])

end Uvnet
