import CoUring.Io.Socket
import Mathlib.Data.List.Basic

namespace CoUring

/-! `bind`: the addresses that `getaddrinfo` found are tried in turn. -/

structure Candidate where
  aiAddr : Nat
  socket : Int
  reuseAddr : Int
  reusePort : Int
  bind : Int
  deriving DecidableEq, Repr

def Candidate.usable (node : Candidate) : Bool :=
  decide (0 ≤ node.socket) && decide (0 ≤ node.reuseAddr) &&
    decide (0 ≤ node.reusePort) && decide (0 ≤ node.bind)

inductive SocketOption
  | soReuseaddr
  | soReuseport
  deriving DecidableEq, Repr

inductive BindCall
  | socket (node : Candidate)
  | setsockopt (sockfd : Int) (option : SocketOption)
  | bind (sockfd : Int) (aiAddr : Nat)
  | close (sockfd : Int)
  | freeaddrinfo
  deriving DecidableEq, Repr

/-- The value a call of `bind` returns and the system calls it makes. -/
structure BindRun where
  server : Option SocketServer
  calls : List BindCall
  deriving DecidableEq, Repr

/-- `file(file&&)`: the new object and what is left of the old one. -/
def File.move (other : File) : File × File := (⟨other.rawFd⟩, ⟨none⟩)

/-- `return socket_server{sockfd}`: a temporary is moved into the returned
`optional` and destroyed. -/
def returnServer (sockfd : Int) : BindRun :=
  let temporary := File.adopt sockfd.toNat
  let moved := temporary.move
  { server := some { file := moved.1 }
    calls := moved.2.closedOnDestruction.map fun rawFd => .close rawFd }

def tryNode (node : Candidate) : Option Int × List BindCall :=
  let sockfd := node.socket
  if sockfd < 0 then (none, [.socket node])
  else if node.reuseAddr < 0 then
    (none, [.socket node, .setsockopt sockfd .soReuseaddr, .close sockfd])
  else if node.reusePort < 0 then
    (none, [.socket node, .setsockopt sockfd .soReuseaddr,
      .setsockopt sockfd .soReuseport, .close sockfd])
  else if node.bind < 0 then
    (none, [.socket node, .setsockopt sockfd .soReuseaddr,
      .setsockopt sockfd .soReuseport, .bind sockfd node.aiAddr,
      .close sockfd])
  else
    (some sockfd, [.socket node, .setsockopt sockfd .soReuseaddr,
      .setsockopt sockfd .soReuseport, .bind sockfd node.aiAddr])

def bindLoop : List Candidate → BindRun
  | [] => { server := none, calls := [.freeaddrinfo] }
  | node :: aiNext =>
      match tryNode node with
      | (none, calls) =>
          let run := bindLoop aiNext
          { run with calls := calls ++ run.calls }
      | (some sockfd, calls) =>
          let returned := returnServer sockfd
          { returned with
            calls := calls ++ .freeaddrinfo :: returned.calls }

/-- `socketAddress` is the list `getaddrinfo` stores, if it succeeds. -/
def bind (socketAddress : Option (List Candidate)) : BindRun :=
  match socketAddress with
  | none => { server := none, calls := [] }
  | some nodes => bindLoop nodes

variable {node : Candidate} {nodes failed later : List Candidate}

/-! What the calls do to the descriptors of the process. -/

structure Descriptor where
  sockfd : Int
  closes : Nat
  deriving DecidableEq, Repr

/-- A number names the descriptor that was given it last. -/
def closeNewest (sockfd : Int) : List Descriptor → Option (List Descriptor)
  | [] => none
  | newest :: older =>
      if newest.sockfd = sockfd then
        some ({ newest with closes := newest.closes + 1 } :: older)
      else (closeNewest sockfd older).map (newest :: ·)

/-- The descriptors opened so far, the newest first. Closing a number that was
never handed out is an error. -/
def recordCall (opened : List Descriptor) :
    BindCall → Option (List Descriptor)
  | .socket node =>
      if node.socket < 0 then some opened else some (⟨node.socket, 0⟩ :: opened)
  | .close sockfd => closeNewest sockfd opened
  | _ => some opened

def recordCalls (opened : List Descriptor) (calls : List BindCall) :
    Option (List Descriptor) :=
  calls.foldlM recordCall opened

/-- The calls that are made on an address, each with its result, as long as
they succeed. -/
def Candidate.stages (node : Candidate) : List (BindCall × Int) :=
  [(.socket node, node.socket),
    (.setsockopt node.socket .soReuseaddr, node.reuseAddr),
    (.setsockopt node.socket .soReuseport, node.reusePort),
    (.bind node.socket node.aiAddr, node.bind)]

def untilFailure : List (BindCall × Int) → List BindCall
  | [] => []
  | (call, result) :: rest =>
      call :: if result < 0 then [] else untilFailure rest

def BindCall.onAddress : BindCall → Bool
  | .close _ => false
  | .freeaddrinfo => false
  | _ => true

def BindCall.candidate : BindCall → Option Candidate
  | .socket node => some node
  | _ => none

namespace BindRun

def descriptors (run : BindRun) : Option (List Descriptor) :=
  recordCalls [] run.calls

def tried (run : BindRun) : List Candidate :=
  run.calls.filterMap BindCall.candidate

def freed (run : BindRun) : Nat := run.calls.count .freeaddrinfo

end BindRun

/-- The descriptors of failed attempts, the newest first, each closed once. -/
def closedOnce (failed : List Candidate) : List Descriptor :=
  ((failed.filter fun node => decide (0 ≤ node.socket)).map
    fun node => ⟨node.socket, 1⟩).reverse

theorem closedOnce_cons (node : Candidate) (failed : List Candidate) :
    closedOnce (node :: failed) = closedOnce failed ++ closedOnce [node] := by
  by_cases opens : 0 ≤ node.socket
  · simp [closedOnce, opens]
  · simp [closedOnce, opens]

theorem recordCalls_append (opened : List Descriptor)
    (before after : List BindCall) :
    recordCalls opened (before ++ after) =
      (recordCalls opened before).bind fun opened =>
        recordCalls opened after :=
  List.foldlM_append

/-! One address. -/

theorem usable_iff : node.usable ↔ 0 ≤ node.socket ∧ 0 ≤ node.reuseAddr ∧
    0 ≤ node.reusePort ∧ 0 ≤ node.bind := by
  simp only [Candidate.usable, Bool.and_eq_true, decide_eq_true_eq, and_assoc]

theorem unusable (failed : node.socket < 0 ∨ node.reuseAddr < 0 ∨
    node.reusePort < 0 ∨ node.bind < 0) : node.usable = false := by
  rw [Bool.eq_false_iff, ne_eq, usable_iff]
  omega

/-- An attempt is one of these: the socket was not opened, it was opened and
closed again, or all steps succeeded. -/
theorem tryNode_cases (node : Candidate) :
    (node.usable = false ∧ node.socket < 0 ∧
      tryNode node = (none, [.socket node])) ∨
    (∃ steps : List BindCall, node.usable = false ∧ 0 ≤ node.socket ∧
      (∀ call ∈ steps, (∃ option, call = .setsockopt node.socket option) ∨
        call = .bind node.socket node.aiAddr) ∧
      tryNode node = (none, .socket node :: steps ++ [.close node.socket])) ∨
    (node.usable ∧ tryNode node = (some node.socket,
      [.socket node, .setsockopt node.socket .soReuseaddr,
        .setsockopt node.socket .soReuseport,
        .bind node.socket node.aiAddr])) := by
  simp only [tryNode]
  split
  next unopened =>
    left
    exact ⟨unusable (.inl unopened), unopened, rfl⟩
  next opens =>
    have opens := Int.not_lt.mp opens
    right
    split
    next refused =>
      left
      refine ⟨[.setsockopt node.socket .soReuseaddr], ?_, opens, ?_, rfl⟩
      · exact unusable (.inr (.inl refused))
      · simp
    next addressed =>
      split
      next refused =>
        left
        refine ⟨[.setsockopt node.socket .soReuseaddr,
          .setsockopt node.socket .soReuseport], ?_, opens, ?_, rfl⟩
        · exact unusable (.inr (.inr (.inl refused)))
        · simp
      next shared =>
        split
        next refused =>
          left
          refine ⟨[.setsockopt node.socket .soReuseaddr,
            .setsockopt node.socket .soReuseport,
            .bind node.socket node.aiAddr], ?_, opens, ?_, rfl⟩
          · exact unusable (.inr (.inr (.inr refused)))
          · simp
        next bound =>
          right
          refine ⟨usable_iff.mpr ⟨opens, ?_, ?_, ?_⟩, rfl⟩
          · exact Int.not_lt.mp addressed
          · exact Int.not_lt.mp shared
          · exact Int.not_lt.mp bound

theorem tryNode_called (node : Candidate) :
    (tryNode node).2.filter BindCall.onAddress =
      untilFailure node.stages := by
  simp only [tryNode, Candidate.stages, untilFailure]
  split
  · rfl
  · split
    · rfl
    · split
      · rfl
      · split
        · rfl
        · rfl

theorem closeNewest_newest (sockfd : Int) (closes : Nat)
    (older : List Descriptor) :
    closeNewest sockfd (⟨sockfd, closes⟩ :: older) =
      some (⟨sockfd, closes + 1⟩ :: older) := by
  simp [closeNewest]

theorem recordCalls_quiet {steps : List BindCall} (opened : List Descriptor)
    (quiet : ∀ call ∈ steps, (∃ option, call = .setsockopt node.socket option) ∨
      call = .bind node.socket node.aiAddr) :
    recordCalls opened steps = some opened ∧
      steps.filterMap BindCall.candidate = [] ∧
      steps.count .freeaddrinfo = 0 := by
  induction steps with
  | nil => exact ⟨rfl, rfl, rfl⟩
  | cons call steps induction =>
      have rest := induction fun later member =>
        quiet later (List.mem_cons_of_mem _ member)
      obtain ⟨option, rfl⟩ | rfl := quiet call List.mem_cons_self
      · exact rest
      · exact rest

theorem tryNode_failed (opened : List Descriptor)
    (failed : node.usable = false) :
    (tryNode node).1 = none ∧
      recordCalls opened (tryNode node).2 =
        some (closedOnce [node] ++ opened) ∧
      (tryNode node).2.filterMap BindCall.candidate = [node] ∧
      (tryNode node).2.count .freeaddrinfo = 0 := by
  obtain ⟨-, unopened, tried⟩ | ⟨steps, -, opens, quiet, tried⟩ | ⟨usable, -⟩ :=
    tryNode_cases node
  · rw [tried]
    simp [recordCalls, recordCall, closedOnce, BindCall.candidate, unopened,
      Int.not_le.mpr unopened]
  · obtain ⟨recorded, candidates, freed⟩ :=
      recordCalls_quiet (⟨node.socket, 0⟩ :: opened) quiet
    have first : recordCalls opened [.socket node] =
        some (⟨node.socket, 0⟩ :: opened) := by
      simp [recordCalls, recordCall, Int.not_lt.mpr opens]
    have last : recordCalls (⟨node.socket, 0⟩ :: opened)
        [.close node.socket] = some (⟨node.socket, 1⟩ :: opened) := by
      simp [recordCalls, recordCall, closeNewest_newest]
    rw [tried]
    refine ⟨rfl, ?_, ?_, ?_⟩
    · rw [List.cons_append, ← List.singleton_append, recordCalls_append, first,
        Option.bind_some, recordCalls_append, recorded, Option.bind_some, last]
      simp [closedOnce, opens]
    · simp [candidates, BindCall.candidate]
    · simp [freed]
  · simp [failed] at usable

/-! All addresses. -/

def attempts (failed : List Candidate) : List BindCall :=
  failed.flatMap fun node => (tryNode node).2

theorem attempts_cons (node : Candidate) (failed : List Candidate) :
    attempts (node :: failed) = (tryNode node).2 ++ attempts failed := rfl

theorem recordCalls_attempts (opened : List Descriptor)
    (fails : ∀ node ∈ failed, node.usable = false) :
    recordCalls opened (attempts failed) =
        some (closedOnce failed ++ opened) ∧
      (attempts failed).filterMap BindCall.candidate = failed ∧
      (attempts failed).count .freeaddrinfo = 0 := by
  induction failed generalizing opened with
  | nil => exact ⟨rfl, rfl, rfl⟩
  | cons node failed induction =>
      obtain ⟨-, first, candidate, kept⟩ :=
        tryNode_failed opened (fails node List.mem_cons_self)
      obtain ⟨rest, candidates, keeps⟩ :=
        induction (closedOnce [node] ++ opened) fun later member =>
          fails later (List.mem_cons_of_mem _ member)
      rw [attempts_cons]
      refine ⟨?_, ?_, ?_⟩
      · rw [recordCalls_append, first, Option.bind_some, rest,
          closedOnce_cons node failed, List.append_assoc]
      · rw [List.filterMap_append, candidate, candidates,
          List.singleton_append]
      · rw [List.count_append, kept, keeps]

theorem attempts_called (failed : List Candidate) :
    (attempts failed).filter BindCall.onAddress =
      failed.flatMap fun node => untilFailure node.stages := by
  rw [attempts, List.filter_flatMap]
  exact congrArg (failed.flatMap ·) (funext tryNode_called)

/-- The loop passes over the addresses that fail. -/
theorem bindLoop_append (later : List Candidate)
    (fails : ∀ node ∈ failed, node.usable = false) :
    bindLoop (failed ++ later) =
      { bindLoop later with
        calls := attempts failed ++ (bindLoop later).calls } := by
  induction failed with
  | nil => rfl
  | cons node failed induction =>
      have first := (tryNode_failed [] (fails node List.mem_cons_self)).1
      have rest := induction fun later member =>
        fails later (List.mem_cons_of_mem _ member)
      rw [List.cons_append, bindLoop, ← Prod.eta (tryNode node), first, rest,
        attempts_cons, List.append_assoc]

theorem bindLoop_usable (later : List Candidate) (usable : node.usable) :
    bindLoop (node :: later) =
      { server := some { file := .adopt node.socket.toNat }
        calls := [.socket node, .setsockopt node.socket .soReuseaddr,
          .setsockopt node.socket .soReuseport,
          .bind node.socket node.aiAddr, .freeaddrinfo] } := by
  obtain ⟨failed, -⟩ | ⟨-, failed, -⟩ | ⟨-, tried⟩ := tryNode_cases node
  · simp [failed] at usable
  · simp [failed] at usable
  · rw [bindLoop, tried]
    rfl

theorem bindLoop_failed (fails : ∀ node ∈ nodes, node.usable = false) :
    bindLoop nodes =
      { server := none, calls := attempts nodes ++ [.freeaddrinfo] } := by
  have passed := bindLoop_append [] fails
  rwa [List.append_nil] at passed

theorem split_usable (nodes : List Candidate) :
    (∀ node ∈ nodes, node.usable = false) ∨
      ∃ failed node later, nodes = failed ++ node :: later ∧
        (∀ other ∈ failed, other.usable = false) ∧ node.usable := by
  cases first : nodes.find? Candidate.usable with
  | none =>
      left
      intro node member
      have refused := List.find?_eq_none.mp first node member
      exact Bool.eq_false_iff.mpr refused
  | some node =>
      obtain ⟨usable, failed, later, split, fails⟩ :=
        List.find?_eq_some_iff_append.mp first
      right
      refine ⟨failed, node, later, split, ?_, usable⟩
      intro other member
      simpa using fails other member

/-- `run` bound the first usable address of the list, and of the descriptors
opened on the way only the returned one is left. -/
structure BoundFirst (socketAddress : Option (List Candidate))
    (run : BindRun) : Prop where
  returned : ∀ server, run.server = some server ↔
    ∃ failed node later, socketAddress = some (failed ++ node :: later) ∧
      (∀ other ∈ failed, other.usable = false) ∧ node.usable ∧
      server = { file := .adopt node.socket.toNat }
  owned : ∀ failed node later, socketAddress = some (failed ++ node :: later) →
    (∀ other ∈ failed, other.usable = false) → node.usable →
    run.tried = failed ++ [node] ∧
      run.descriptors = some (⟨node.socket, 0⟩ :: closedOnce failed)
  nullopt : run.server = none ↔
    ∀ nodes, socketAddress = some nodes → ∀ node ∈ nodes, node.usable = false
  nothingLeft : run.server = none →
    run.descriptors = some (closedOnce (socketAddress.getD []))
  freed : run.freed = if socketAddress.isSome then 1 else 0
  called : run.calls.filter BindCall.onAddress =
    run.tried.flatMap fun node => untilFailure node.stages

theorem bindLoop_split (later : List Candidate)
    (fails : ∀ other ∈ failed, other.usable = false) (usable : node.usable) :
    bindLoop (failed ++ node :: later) =
      { server := some { file := .adopt node.socket.toNat }
        calls := attempts failed ++ [.socket node,
          .setsockopt node.socket .soReuseaddr,
          .setsockopt node.socket .soReuseport,
          .bind node.socket node.aiAddr, .freeaddrinfo] } := by
  rw [bindLoop_append (node :: later) fails, bindLoop_usable later usable]

theorem bindLoop_server (server : SocketServer) :
    (bindLoop nodes).server = some server ↔
      ∃ failed node later, nodes = failed ++ node :: later ∧
        (∀ other ∈ failed, other.usable = false) ∧ node.usable ∧
        server = { file := .adopt node.socket.toNat } := by
  constructor
  · intro returned
    obtain fails | ⟨failed, node, later, rfl, fails, usable⟩ :=
      split_usable nodes
    · rw [bindLoop_failed fails] at returned
      cases returned
    · rw [bindLoop_split later fails usable] at returned
      cases returned
      exact ⟨failed, node, later, rfl, fails, usable, rfl⟩
  · rintro ⟨failed, node, later, rfl, fails, usable, rfl⟩
    rw [bindLoop_split later fails usable]

theorem bindLoop_server_none :
    (bindLoop nodes).server = none ↔
      ∀ node ∈ nodes, node.usable = false := by
  constructor
  · intro nullopt
    obtain fails | ⟨failed, node, later, rfl, fails, usable⟩ :=
      split_usable nodes
    · exact fails
    · rw [bindLoop_split later fails usable] at nullopt
      cases nullopt
  · intro fails
    rw [bindLoop_failed fails]

theorem bindLoop_owned (later : List Candidate)
    (fails : ∀ other ∈ failed, other.usable = false) (usable : node.usable) :
    (bindLoop (failed ++ node :: later)).tried = failed ++ [node] ∧
      (bindLoop (failed ++ node :: later)).descriptors =
        some (⟨node.socket, 0⟩ :: closedOnce failed) := by
  obtain ⟨recorded, candidates, -⟩ := recordCalls_attempts [] fails
  have opens := Int.not_lt.mpr (usable_iff.mp usable).1
  rw [bindLoop_split later fails usable]
  constructor
  · rw [BindRun.tried, List.filterMap_append, candidates]
    rfl
  · rw [BindRun.descriptors, recordCalls_append, recorded, List.append_nil]
    simp [recordCalls, recordCall, opens]

theorem bindLoop_freed (nodes : List Candidate) :
    (bindLoop nodes).freed = 1 := by
  obtain fails | ⟨failed, node, later, rfl, fails, usable⟩ :=
    split_usable nodes
  · rw [bindLoop_failed fails, BindRun.freed, List.count_append,
      (recordCalls_attempts [] fails).2.2]
    rfl
  · rw [bindLoop_split later fails usable, BindRun.freed, List.count_append,
      (recordCalls_attempts [] fails).2.2]
    simp

theorem bindLoop_called (nodes : List Candidate) :
    (bindLoop nodes).calls.filter BindCall.onAddress =
      (bindLoop nodes).tried.flatMap fun node =>
        untilFailure node.stages := by
  obtain fails | ⟨failed, node, later, rfl, fails, usable⟩ :=
    split_usable nodes
  · have candidates := (recordCalls_attempts [] fails).2.1
    rw [bindLoop_failed fails, BindRun.tried, List.filter_append,
      List.filterMap_append, candidates, attempts_called]
    simp [BindCall.onAddress, BindCall.candidate]
  · rw [(bindLoop_owned later fails usable).1, List.flatMap_append,
      bindLoop_split later fails usable, List.filter_append, attempts_called,
      List.flatMap_singleton, ← tryNode_called]
    obtain ⟨failed, -⟩ | ⟨-, failed, -⟩ | ⟨-, tried⟩ := tryNode_cases node
    · simp [failed] at usable
    · simp [failed] at usable
    · rw [tried]
      rfl

/-- The descriptor that a worker's `init` gets from `bind`. -/
def BindRun.bound (run : BindRun) : Option RawFd :=
  run.server.bind fun server => server.file.rawFd

theorem bind_bound_iff (socketAddress : Option (List Candidate))
    (rawFd : RawFd) :
    (bind socketAddress).bound = some rawFd ↔
      ∃ failed node later, socketAddress = some (failed ++ node :: later) ∧
        (∀ other ∈ failed, other.usable = false) ∧ node.usable ∧
        rawFd = node.socket.toNat := by
  cases socketAddress with
  | none =>
      simp only [bind, BindRun.bound, Option.bind_none]
      refine iff_of_false nofun fun found => ?_
      obtain ⟨failed, node, later, impossible, -⟩ := found
      cases impossible
  | some nodes =>
      rw [BindRun.bound, bind, Option.bind_eq_some_iff]
      constructor
      · intro found
        obtain ⟨server, returned, has⟩ := found
        obtain ⟨failed, node, later, rfl, fails, usable, rfl⟩ :=
          (bindLoop_server server).mp returned
        cases has
        exact ⟨failed, node, later, rfl, fails, usable, rfl⟩
      · intro found
        obtain ⟨failed, node, later, same, fails, usable, rfl⟩ := found
        cases same
        exact ⟨{ file := .adopt node.socket.toNat }, (bindLoop_server _).mpr
          ⟨failed, node, later, rfl, fails, usable, rfl⟩, rfl⟩

theorem bind_first_usable (socketAddress : Option (List Candidate)) :
    BoundFirst socketAddress (bind socketAddress) := by
  cases socketAddress with
  | none =>
      constructor <;> simp [bind, BindRun.freed, BindRun.descriptors,
        BindRun.tried, recordCalls, closedOnce]
  | some nodes =>
      constructor
      case returned =>
        intro server
        simp only [bind, Option.some.injEq]
        exact bindLoop_server server
      case owned =>
        rintro failed node later ⟨⟩ fails usable
        exact bindLoop_owned later fails usable
      case nullopt =>
        refine bindLoop_server_none.trans ⟨?_, fun fails => fails nodes rfl⟩
        rintro fails _ ⟨⟩
        exact fails
      case nothingLeft =>
        intro nullopt
        have fails := bindLoop_server_none.mp nullopt
        rw [bind, bindLoop_failed fails, BindRun.descriptors,
          recordCalls_append, (recordCalls_attempts [] fails).1,
          List.append_nil]
        rfl
      case freed => exact bindLoop_freed nodes
      case called => exact bindLoop_called nodes

/-- A number is handed out again after its descriptor was closed. -/
example :
    bind (some [⟨0, -1, 0, 0, 0⟩, ⟨1, 5, 0, 0, -1⟩, ⟨2, 5, 0, 0, 0⟩,
      ⟨3, 6, 0, 0, 0⟩]) =
    { server := some { file := .adopt 5 }
      calls := [.socket ⟨0, -1, 0, 0, 0⟩, .socket ⟨1, 5, 0, 0, -1⟩,
        .setsockopt 5 .soReuseaddr, .setsockopt 5 .soReuseport, .bind 5 1,
        .close 5, .socket ⟨2, 5, 0, 0, 0⟩, .setsockopt 5 .soReuseaddr,
        .setsockopt 5 .soReuseport, .bind 5 2, .freeaddrinfo] } := by
  decide

end CoUring
