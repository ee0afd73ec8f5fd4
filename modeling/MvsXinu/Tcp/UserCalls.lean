import MvsXinu.Lib.Counting
import MvsXinu.Lib.Mutex
import MvsXinu.Tcp.Handshake

/-!
# The users' calls and their semaphores

Readers wait on `tcb_rsema` and writers on `tcb_ssema` before they take `tcb_mutex`. Both
semaphores hold a token that stands for data or for space: who finds too little gives the
mutex back and waits for another one. Everybody else who works on the block under its mutex
(`tcpinp`, `tcpout`, `tcpclose`, `tcpcntl`, the opening) is a keeper here, and what a keeper
does is a sequence of the functions that the handlers are made of.

A process is between two of its calls of the kernel in one step, so every order of the
processes at these calls is a run.
-/

namespace MvsXinu.Tcp

open MvsXinu.SeqSpace MvsXinu.Counting MvsXinu.Mutex

set_option autoImplicit false

abbrev Pid := Nat

inductive Side where
  | readers
  | writers
  deriving DecidableEq, Repr

inductive Request where
  | read (len : Word)
  | write (octets : List Octet) (isurg : Bool)
  deriving DecidableEq

def Request.side : Request → Side
  | .read _ => .readers
  | .write _ _ => .writers

/-- How far a call is: before the token, behind its `wait`, behind the `wait` for the mutex,
and with the mutex about to return or to try again. -/
inductive CallStage where
  | calling
  | token
  | mutex
  | leaving (written : Bool)
  | retrying
  deriving DecidableEq, Repr

inductive Stage where
  | away
  | call (request : Request) (stage : CallStage)
  | keeper
  deriving DecidableEq

structure Desk where
  conn : Conn
  sema : Side → Counting Pid
  mutex : Mutex Pid
  stage : Pid → Stage
  -- `proctab[pid].ptcpumode`
  umode : Pid → Bool

/-- `tcbdealloc` has deleted the semaphores. -/
def Desk.gone (s : Desk) : Prop := s.conn.tcb.state = .free

instance (s : Desk) : Decidable s.gone := inferInstanceAs (Decidable (_ = _))

def Desk.place (s : Desk) (pid : Pid) (stage : Stage) : Desk :=
  { s with stage := Function.update s.stage pid stage }

def Desk.setSema (s : Desk) (side : Side) (sem : Counting Pid) : Desk :=
  { s with sema := Function.update s.sema side sem }

/-! ## The kernel's calls, which fail on a deleted semaphore -/

def Desk.waitSema (s : Desk) (side : Side) (pid : Pid) : Desk :=
  if s.gone then s else s.setSema side ((s.sema side).wait pid)

def Desk.signalSema (s : Desk) (side : Side) : Desk :=
  if s.gone then s else s.setSema side (s.sema side).signal

def Desk.waitMutex (s : Desk) (pid : Pid) : Desk :=
  if s.gone then s else { s with mutex := s.mutex.wait pid }

def Desk.signalMutex (s : Desk) : Desk :=
  if s.gone then s else { s with mutex := s.mutex.signal }

/-! ## `tcpwakeup` -/

def tcpwakes (tcb : Tcb) : Side → Bool
  | .readers => tcb.flags.rdone || decide (0 < tcb.rbcount.toNat) || tcb.flags.rupok
  | .writers => tcb.flags.sdone || decide (0 < (tcb.sbsize - tcb.sbcount).toInt)

def Desk.tcpwakeup (s : Desk) (side : Side) : Desk :=
  if tcpwakes s.conn.tcb side = true ∧ (s.sema side).count ≤ 0 then s.signalSema side else s

/-- The wake-up in `tcpacked`, which asks for the count only. -/
def Desk.offer (s : Desk) (side : Side) : Desk :=
  if (s.sema side).count ≤ 0 then s.signalSema side else s

/-! ## `tcpwr` and `tcpread` once they have the mutex -/

/-- `tcpgetspace` with the token and the mutex, and what `tcpwr` then does. With nothing to
copy `tcpwr` returns as it does after an error, but nobody has given the mutex back. -/
def Desk.write (s : Desk) (pid : Pid) (octets : List Octet) (isurg : Bool) : Desk :=
  let now := fun stage => Stage.call (.write octets isurg) stage
  if s.gone then s.place pid .away
  else if s.conn.tcb.error.isSome then (s.tcpwakeup .writers).place pid (now (.leaving false))
  else if octets.length ≤ (s.conn.tcb.sbsize - s.conn.tcb.sbcount).toNat then
    if octets = [] then s.place pid .away
    else
      let stored := { s with conn := { s.conn with tcb := tcpstored s.conn.tcb octets isurg } }
      (stored.tcpwakeup .writers).place pid (now (.leaving true))
  else s.place pid (now .retrying)

/-- The user asked for full buffers, and there is neither enough nor a reason to return less. -/
def Tcb.unfilled (tcb : Tcb) (len : Word) : Bool :=
  decide (tcb.rbcount.toNat < len.toNat) && tcb.flags.buffer && !tcb.flags.push &&
    !tcb.flags.rdone

def Desk.read (s : Desk) (pid : Pid) (len : Word) : Desk :=
  let now := fun stage => Stage.call (.read len) stage
  let copied := { s with conn := tcpread s.conn len }
  if s.gone then s.place pid .away
  else if s.conn.tcb.error.isSome then (s.tcpwakeup .readers).place pid (now (.leaving false))
  else if s.conn.tcb.flags.rupok then
    if s.umode pid then (copied.tcpwakeup .readers).place pid (now (.leaving false))
    else
      (({ s with umode := Function.update s.umode pid true }).tcpwakeup .readers).place pid
        (now (.leaving false))
  else if s.umode pid then
    (({ s with umode := Function.update s.umode pid false }).tcpwakeup .readers).place pid
      (now (.leaving false))
  else if s.conn.tcb.unfilled len then s.place pid (now .retrying)
  else (copied.tcpwakeup .readers).place pid (now (.leaving false))

def Desk.look (s : Desk) (pid : Pid) : Request → Desk
  | .read len => s.read pid len
  | .write octets isurg => s.write pid octets isurg

/-- The end of `tcpwr`, without the mutex: the first octets wake the output process. -/
def Desk.kick (s : Desk) (request : Request) (written : Bool) : Desk :=
  match request with
  | .write _ isurg =>
      if written && (isurg || s.conn.tcb.snext == s.conn.tcb.suna) then
        { s with conn := tcpkick s.conn }
      else s
  | .read _ => s

/-- A process in a call goes on, if it is not blocked. -/
def Desk.advance (s : Desk) (pid : Pid) : Desk :=
  match s.stage pid with
  | .call request .calling => (s.waitSema request.side pid).place pid (.call request .token)
  | .call request .token =>
      if pid ∈ (s.sema request.side).waiting then s
      else (s.waitMutex pid).place pid (.call request .mutex)
  | .call request .mutex =>
      if s.gone ∨ s.mutex.owner = some pid then s.look pid request else s
  | .call request (.leaving written) =>
      (s.signalMutex.kick request written).place pid .away
  | .call request .retrying => s.signalMutex.place pid (.call request .calling)
  | _ => s

/-! ## What the keepers of the mutex do -/

/-- `tcpacked` has found octets acknowledged and signals `tcb_ssema`. -/
def tcpackedsignals (tcb : Tcb) (segment : Segment) : Bool :=
  segment.code.ack && decide (0 < seqcmp segment.ack tcb.suna) &&
    decide (seqcmp segment.ack tcb.snext ≤ 0) && decide (tcpackedlen tcb segment.ack ≠ 0)

/-- `wakeup` in `tcpdodat`. -/
def tcpdodatwakes (tcb : Tcb) (code : Code) (first : Tcpseq) (datalen : Word) : Bool :=
  decide (tcb.rnext = first) &&
    (decide (0 < datalen.toNat) || code.fin || code.psh || code.urg)

/-- The same for the data section, whose bounds are those of `tcpsection`. -/
def tcpsectionwakes (tcb : Tcb) (segment : Segment) (seq : Tcpseq) : Bool :=
  let wlast := tcb.rnext + BitVec.ofInt 32 tcb.rwindow - 1
  let last := seq + BitVec.ofInt 32 segment.datalen - 1
  let front := if 0 < seqcmp tcb.rnext seq then seqcmp tcb.rnext seq else 0
  let first := if 0 < seqcmp tcb.rnext seq then tcb.rnext else seq
  let cut := 0 < seqcmp last wlast
  let datalen := segment.datalen - front - (if cut then seqcmp last wlast else 0)
  let code := if cut then { segment.code with fin := false } else segment.code
  tcpdodatwakes tcb code first (BitVec.ofInt 32 datalen)

def tcpdatawakes (tcb : Tcb) (segment : Segment) : Bool :=
  let tcb := tcpurg tcb segment
  if segment.code.syn then
    tcpsectionwakes { tcb with
      rnext := tcb.rnext + 1
      flags := { tcb.flags with needout := true } } segment (segment.seq + 1)
  else tcpsectionwakes tcb segment segment.seq

inductive Work where
  | acked (segment : Segment)
  | deliver (inbound : Inbound)
  | window (segment : Segment)
  | send (rexmt : Bool)
  | kick
  | abort (error : TcpError)
  | option (set delack buffer : Bool)
  | close
  -- RST in SYN_SENT
  | refuse
  | enter (state : TcpState)
  | dealloc

def Desk.onConn (s : Desk) (conn : Conn) : Desk := { s with conn := conn }

def Desk.tcbdealloc (s : Desk) : Desk :=
  { s with
    conn := Tcp.tcbdealloc s.conn
    sema := fun side => { s.sema side with waiting := [] }
    mutex := unowned }

/-- The states that handlers enter once the connection is being opened. -/
def TcpState.Later (state : TcpState) : Prop :=
  state ≠ .free ∧ state ≠ .closed ∧ state ≠ .synsent

instance (state : TcpState) : Decidable state.Later := inferInstanceAs (Decidable (_ ∧ _ ∧ _))

def Desk.work (s : Desk) : Work → Desk
  | .acked segment =>
      let acked := s.onConn (tcpacked s.conn segment).2
      if tcpackedsignals s.conn.tcb segment then acked.offer .writers else acked
  | .deliver inbound =>
      let delivered := s.onConn (tcpdeliver s.conn inbound)
      if tcpdatawakes s.conn.tcb inbound.segment then delivered.tcpwakeup .readers else delivered
  | .window segment => s.onConn (tcpswindow s.conn segment)
  | .send rexmt => s.onConn (tcpsend s.conn rexmt)
  | .kick => s.onConn (tcpkick s.conn)
  | .abort error => ((s.onConn (tcpabort s.conn error)).tcpwakeup .readers).tcpwakeup .writers
  | .option set delack buffer => s.onConn (tcpuopt s.conn set delack buffer)
  | .close =>
      if s.conn.tcb.state = .established ∨ s.conn.tcb.state = .closewait then
        s.onConn (tcpkick { s.conn with tcb := tcpclosedtcb s.conn.tcb })
      else s
  | .refuse =>
      if s.conn.tcb.state = .synsent then
        s.onConn (tcpkilltimers
          { s.conn with tcb := { s.conn.tcb with state := .closed, error := some .reset } })
      else s
  | .enter state =>
      if state.Later ∧ s.conn.tcb.state ≠ .closed then s.onConn (s.conn.enter state) else s
  | .dealloc => s.tcbdealloc

inductive DeskEvent where
  | call (pid : Pid) (request : Request)
  | advance (pid : Pid)
  | keep (pid : Pid)
  | work (pid : Pid) (work : Work)
  | leave (pid : Pid)
  /-- A closer or an opener deallocates without the mutex. -/
  | dealloc

/-- The checks before the first `wait`. -/
def Tcb.admits (tcb : Tcb) : Request → Bool
  | .read _ => tcb.state == .established || tcb.state == .closewait
  | .write octets _ =>
      (tcb.state == .established || tcb.state == .closewait) &&
        decide (octets.length ≤ tcb.sbsize.toNat)

def deskStep (s : Desk) : DeskEvent → Desk
  | .call pid request =>
      if s.stage pid = .away ∧ s.conn.tcb.admits request = true then
        s.place pid (.call request .calling)
      else s
  | .advance pid => s.advance pid
  | .keep pid =>
      if s.stage pid = .away ∧ ¬ s.gone then (s.waitMutex pid).place pid .keeper else s
  | .work pid work =>
      if s.stage pid = .keeper ∧ s.mutex.owner = some pid ∧ ¬ s.gone then s.work work else s
  | .leave pid =>
      if s.stage pid = .keeper ∧ (s.gone ∨ s.mutex.owner = some pid) then
        s.signalMutex.place pid .away
      else s
  | .dealloc => if s.gone then s else s.tcbdealloc

/-- A block as `tcpsync` leaves it, for an active open or for a SYN. -/
inductive Allotted : Conn → Prop where
  | active (iss : Tcpseq) (mss lip rip : Word) (lport rport : BitVec 16) (tcbnum : Nat)
      (timers : List Tqent) (oport : List (OutEvent × Nat)) (ctr100 : Int) :
      Allotted { tcb := tcpcon iss mss lip rip lport rport, tcbnum, timers, oport, ctr100 }
  | passive (iss : Tcpseq) (mss parentSmss : Word) (segment : Segment) (tcbnum : Nat)
      (timers : List Tqent) (oport : List (OutEvent × Nat)) (ctr100 : Int) :
      Allotted { tcb := tcplisten iss mss parentSmss segment, tcbnum, timers, oport, ctr100 }

/-- `tcballoc` creates the mutex with a count of 0: who opens the connection has it. -/
def Desk.start (conn : Conn) (opener : Pid) (umode : Pid → Bool) : Desk where
  conn := conn
  sema := fun side => match side with
    | .readers => { count := 0, waiting := [] }
    | .writers => { count := 1, waiting := [] }
  mutex := { owner := some opener, waiting := [] }
  stage := Function.update (fun _ => .away) opener .keeper
  umode := umode

/-! ## Progress -/

def Desk.Blocked (s : Desk) (pid : Pid) : Prop :=
  match s.stage pid with
  | .call request .token => pid ∈ (s.sema request.side).waiting
  | .call _ .mutex => pid ∈ s.mutex.waiting
  | .keeper => pid ∈ s.mutex.waiting
  | _ => False

/-- No process is runnable inside of a call. -/
def Desk.Quiet (s : Desk) : Prop := ∀ pid, s.stage pid ≠ .away → s.Blocked pid

/-- There is something to do for a process that waits. -/
def Tcb.Urgent (tcb : Tcb) : Side → Prop
  | .readers =>
      tcb.rbsize.toNat ≤ tcb.rbcount.toNat ∨ tcb.flags.rdone = true ∨ tcb.error.isSome = true
  | .writers => tcb.sbcount = 0 ∨ tcb.error.isSome = true

/-- Every call that has returned has given the mutex back. -/
def Desk.Released (s : Desk) : Prop :=
  ∀ pid, s.stage pid = .away → s.gone ∨ s.mutex.owner ≠ some pid

def Desk.Progresses (s : Desk) : Prop :=
  s.Quiet → ∀ side, ∀ pid ∈ (s.sema side).waiting, ¬ s.conn.tcb.Urgent side

/-- A writer of nothing finds the block in order, or a reader that wants more than the buffer
holds finds it full. -/
def Desk.Starves (s : Desk) (pid : Pid) : Prop :=
  s.mutex.owner = some pid ∧ ¬ s.gone ∧ s.conn.tcb.error = none ∧
    match s.stage pid with
    | .call (.write octets _) .mutex => octets = []
    | .call (.read len) .mutex =>
        s.conn.tcb.rbsize.toNat ≤ s.conn.tcb.rbcount.toNat ∧ s.conn.tcb.flags.rupok = false ∧
          s.umode pid = false ∧ s.conn.tcb.unfilled len = true
    | _ => False

def Apt (s : Desk) : DeskEvent → Prop
  | .advance pid => ¬ s.Starves pid
  | _ => True

end MvsXinu.Tcp
