import Mathlib.Data.List.Perm.Basic
import Mathlib.Data.List.Nodup
import CoUring.Io.IoUring

namespace CoUring

/-- The awaiter's `sqe_data` an operation reports to. -/
inductive SqeAddr.Fits : SqeAddr → Operation → Prop
  | accept {worker : WorkerId} : Fits (.acceptGuard worker) .multishotAccept
  | recv {frame : FrameId} {slot : RecvSlot} :
      Fits (.recvAwaiter frame slot) .recv
  | send {frame : FrameId} {buf : Span} :
      Fits (.sendAwaiter frame) (.send buf)

theorem SqeAddr.Fits.isAcceptGuard {address : SqeAddr} {operation : Operation}
    (fits : address.Fits operation) :
    address.isAcceptGuard = true ↔ operation = .multishotAccept := by
  cases fits with
  | accept => exact iff_of_true rfl rfl
  | recv => exact iff_of_false Bool.false_ne_true Operation.noConfusion
  | send => exact iff_of_false Bool.false_ne_true Operation.noConfusion

def SqeAddr.frame : SqeAddr → Option FrameId
  | .acceptGuard _ => none
  | .recvAwaiter frame _ => some frame
  | .sendAwaiter frame => some frame

/-- What holds of the requests of one ring: each fits its `sqe_data`, each
completion carries one, and only an accept guard's occurs more than once. -/
structure IoUring.Kept (ring : IoUring) : Prop where
  fits : ∀ request, request ∈ ring.sq ∨ request ∈ ring.inflight →
    request.userData.Fits request.operation
  carried : ∀ cqe ∈ ring.cq, cqe.userData ≠ none
  once : (ring.outstanding.filter fun address =>
    !address.isAcceptGuard).Nodup

namespace IoUring

variable {ring : IoUring} {request : Request}

theorem mem_outstanding {address : SqeAddr} :
    address ∈ ring.outstanding ↔
      (∃ request ∈ ring.sq, request.userData = address) ∨
      (∃ request ∈ ring.inflight, request.userData = address) ∨
      ∃ cqe ∈ ring.cq, cqe.userData = some address := by
  simp [outstanding]

theorem outstanding_queueRequest (room : ring.sq.length < queueSize) :
    (ring.queueRequest request).outstanding.Perm
      (request.userData :: ring.outstanding) := by
  rw [queueRequest_room request room]
  simp only [outstanding, List.map_append, List.map_cons, List.map_nil,
    List.append_assoc, List.singleton_append]
  exact List.perm_middle

theorem mem_outstanding_queueRequest {address : SqeAddr}
    (member : address ∈ (ring.queueRequest request).outstanding) :
    address ∈ ring.outstanding ∨ address = request.userData := by
  by_cases room : ring.sq.length < queueSize
  · rw [(outstanding_queueRequest room).mem_iff, List.mem_cons] at member
    exact member.symm
  · rw [queueRequest_full request room] at member
    exact Or.inl member

theorem queueRequest_grows {address : SqeAddr}
    (member : address ∈ ring.outstanding) :
    address ∈ (ring.queueRequest request).outstanding := by
  by_cases room : ring.sq.length < queueSize
  · rw [(outstanding_queueRequest room).mem_iff]
    exact .tail _ member
  · rwa [queueRequest_full request room]

theorem Kept.empty : Kept {} where
  fits := fun request member => by simp at member
  carried := fun cqe member => by simp at member
  once := by simp [outstanding]

theorem nodup_of_perm {before after : List SqeAddr}
    (same : after.Perm before)
    (once : (before.filter fun address => !address.isAcceptGuard).Nodup) :
    (after.filter fun address => !address.isAcceptGuard).Nodup :=
  (same.filter _).nodup_iff.mpr once

theorem Kept.queueRequest (kept : Kept ring)
    (fits : request.userData.Fits request.operation)
    (new : request.userData.isAcceptGuard = false →
      request.userData ∉ ring.outstanding) :
    Kept (ring.queueRequest request) := by
  by_cases room : ring.sq.length < queueSize
  · refine ⟨?_, ?_, ?_⟩
    · rw [queueRequest_room request room]
      intro other member
      rw [List.mem_append, List.mem_singleton, or_right_comm] at member
      rcases member with earlier | rfl
      · exact kept.fits other earlier
      · exact fits
    · rw [queueRequest_cq]
      exact kept.carried
    · refine nodup_of_perm (outstanding_queueRequest room) ?_
      cases isGuard : request.userData.isAcceptGuard with
      | true =>
          rw [List.filter_cons_of_neg (by simp [isGuard])]
          exact kept.once
      | false =>
          rw [List.filter_cons_of_pos (by simp [isGuard]), List.nodup_cons]
          refine ⟨fun member => new isGuard ?_, kept.once⟩
          exact (List.mem_filter.mp member).1
  · rw [queueRequest_full request room]
    exact kept

theorem outstanding_submit :
    outstanding { ring with sq := [], inflight := ring.inflight ++ ring.sq }
      |>.Perm ring.outstanding := by
  simp only [outstanding, List.map_nil, List.nil_append, List.map_append]
  exact List.perm_append_comm.append_right _

theorem Kept.submit (kept : Kept ring) :
    Kept { ring with sq := [], inflight := ring.inflight ++ ring.sq } where
  fits := fun request member => by
    simp only [List.not_mem_nil, false_or, List.mem_append] at member
    exact kept.fits request member.symm
  carried := kept.carried
  once := nodup_of_perm outstanding_submit kept.once

theorem outstanding_seen {cqe : Cqe} {rest : List Cqe} {address : SqeAddr}
    (next : ring.cq = cqe :: rest) (carries : cqe.userData = some address) :
    ring.outstanding.Perm
      (address :: outstanding { ring with cq := rest }) := by
  simp only [outstanding, next, List.filterMap_cons_some carries]
  exact List.perm_middle

theorem Kept.seen {cqe : Cqe} {rest : List Cqe} (kept : Kept ring)
    (next : ring.cq = cqe :: rest) : Kept { ring with cq := rest } := by
  obtain ⟨address, carries⟩ :=
    Option.ne_none_iff_exists'.mp (kept.carried cqe (by simp [next]))
  have taken := nodup_of_perm (outstanding_seen next carries).symm kept.once
  refine ⟨kept.fits, ?_, ?_⟩
  · intro other member
    exact kept.carried other (by rw [next]; exact .tail _ member)
  · exact taken.sublist ((List.sublist_cons_self _ _).filter _)

/-- What was taken is outstanding no more, unless it is the accept guard's. -/
theorem Kept.not_mem_seen {cqe : Cqe} {rest : List Cqe} {address : SqeAddr}
    (kept : Kept ring) (next : ring.cq = cqe :: rest)
    (carries : cqe.userData = some address)
    (single : address.isAcceptGuard = false) :
    address ∉ outstanding { ring with cq := rest } := by
  have taken := nodup_of_perm (outstanding_seen next carries).symm kept.once
  rw [List.filter_cons_of_pos (by simp [single]), List.nodup_cons] at taken
  intro member
  exact taken.1 (List.mem_filter.mpr ⟨member, by simp [single]⟩)

theorem inflight_perm {inflight : List Request} {index : Nat}
    (found : inflight[index]? = some request) :
    (inflight.map Request.userData).Perm
      (request.userData ::
        (inflight.eraseIdx index).map Request.userData) := by
  obtain ⟨bound, rfl⟩ := List.getElem?_eq_some_iff.mp found
  exact (List.getElem_cons_eraseIdx_perm bound).symm.map Request.userData

theorem outstanding_completed {index : Nat} {cqe : Cqe}
    (found : ring.inflight[index]? = some request)
    (carries : cqe.userData = some request.userData) :
    outstanding { ring with
      inflight := ring.inflight.eraseIdx index, cq := ring.cq ++ [cqe] }
      |>.Perm ring.outstanding := by
  have removed := inflight_perm found
  simp only [outstanding, List.filterMap_append,
    List.filterMap_cons_some carries, List.filterMap_nil]
  calc
    List.Perm _ (ring.sq.map Request.userData ++
        ((ring.inflight.eraseIdx index).map Request.userData ++
          (request.userData :: ring.cq.filterMap Cqe.userData))) := by
      rw [List.append_assoc]
      exact ((List.perm_append_singleton _ _).append_left _).append_left _
    List.Perm _ (ring.sq.map Request.userData ++
        (ring.inflight.map Request.userData ++
          ring.cq.filterMap Cqe.userData)) := by
      refine List.Perm.append_left _ (List.perm_middle.trans ?_)
      exact removed.symm.append_right _
    List.Perm _ _ := by rw [List.append_assoc]

theorem Kept.completed {index : Nat} {cqe : Cqe} (kept : Kept ring)
    (found : ring.inflight[index]? = some request)
    (carries : cqe.userData = some request.userData) :
    Kept { ring with
      inflight := ring.inflight.eraseIdx index
      cq := ring.cq ++ [cqe] } where
  fits := fun other member => kept.fits other
    (member.imp_right (List.eraseIdx_subset ·))
  carried := fun other member => by
    rcases List.mem_append.mp member with earlier | added
    · exact kept.carried other earlier
    · rw [List.mem_singleton.mp added, carries]
      exact Option.some_ne_none _
  once := nodup_of_perm (outstanding_completed found carries) kept.once

theorem outstanding_posted {cqe : Cqe} {address : SqeAddr}
    (carries : cqe.userData = some address) :
    outstanding { ring with cq := ring.cq ++ [cqe] } =
      ring.outstanding ++ [address] := by
  simp only [outstanding, List.filterMap_append,
    List.filterMap_cons_some carries, List.filterMap_nil, List.append_assoc]

theorem Kept.posted {cqe : Cqe} {address : SqeAddr} (kept : Kept ring)
    (carries : cqe.userData = some address)
    (isGuard : address.isAcceptGuard = true) :
    Kept { ring with cq := ring.cq ++ [cqe] } where
  fits := kept.fits
  carried := fun other member => by
    rcases List.mem_append.mp member with earlier | added
    · exact kept.carried other earlier
    · rw [List.mem_singleton.mp added, carries]
      exact Option.some_ne_none _
  once := by
    rw [outstanding_posted carries, List.filter_append,
      List.filter_cons_of_neg (by simp [isGuard]), List.filter_nil,
      List.append_nil]
    exact kept.once

end IoUring

end CoUring
