import VistaBlox.AccountLifecycle

/-!
# Which calls the account services make
-/
namespace AccountLifecycle

open Interleaving
open DeviceEnrolment (MobilePlatform)

/-- The calls that only one service makes. -/
inductive Kind where
  | plain | opening | offboarding | completion | login
  deriving DecidableEq, Repr

def Op.kind : Op → Kind
  | .openCase .. => .opening
  | .completeOffboarding _ => .offboarding
  | .completeCase .. => .completion
  | .revokeDevicesForRecovery .. => .completion
  | .insertSession .. => .login
  | _ => .plain

def Op.within (k : Kind) (op : Op) : Prop := op.kind = .plain ∨ op.kind = k

variable {k : Kind}

theorem calls_plain (h : op.kind = .plain) : (invoke op).Calls (Op.within k) := Prog.calls_perform (.inl h)

theorem attempt_calls (h : p.Calls (Op.within k)) : (attempt p).Calls (Op.within k) :=
  h.catchWith fun _ => trivial

theorem assertCustomerUser_calls (user : Option AuthUser) : (assertCustomerUser user).Calls (Op.within k) := by
  unfold assertCustomerUser
  split
  · trivial
  · split <;> trivial

theorem assertStaffUser_calls : (assertStaffUser user).Calls (Op.within k) := by
  unfold assertStaffUser
  split
  · trivial
  · split <;> trivial

theorem revokeAllSessions_calls (userId : UserId) : (revokeAllSessions userId).Calls (Op.within k) := by
  refine (calls_plain rfl).bind fun user => ?_
  refine (assertCustomerUser_calls user).bind fun _ => ?_
  refine (calls_plain rfl).bind fun now => ?_
  exact (calls_plain rfl).bind fun _ => calls_plain rfl

theorem revokeSessionsForRecoveryCompletion_calls :
    (revokeSessionsForRecoveryCompletion userId).Calls (Op.within k) := by
  refine (calls_plain rfl).bind fun user => ?_
  refine (assertCustomerUser_calls user).bind fun _ => ?_
  exact (calls_plain rfl).bind fun _ => calls_plain rfl

theorem clearRecoveryRequired_calls (userId : UserId) : (clearRecoveryRequired userId).Calls (Op.within k) := by
  refine (calls_plain rfl).bind fun user => ?_
  exact (assertCustomerUser_calls user).bind fun _ => calls_plain rfl

theorem sendRecoveryCompletionEmail_calls :
    (sendRecoveryCompletionEmail userId).Calls (Op.within k) := by
  refine (calls_plain rfl).bind fun user => ?_
  refine (assertCustomerUser_calls user).bind fun customerUser => ?_
  exact (calls_plain rfl).bind fun _ => calls_plain rfl

theorem disableAndRevoke_calls (userId : UserId) (disabledAt : ℤ) :
    (disableAndRevoke userId disabledAt).Calls (Op.within k) := by
  refine (calls_plain rfl).bind fun user => ?_
  refine assertStaffUser_calls.bind fun staffUser => ?_
  refine Prog.Calls.bind ?_ fun _ => calls_plain rfl
  unfold disable
  split
  · exact calls_plain rfl
  · trivial

theorem notify_calls (email : Email) (contactEmail : Option Address) :
    (notify email contactEmail).Calls (Op.within k) := by
  unfold notify
  split
  · trivial
  · exact attempt_calls (calls_plain rfl)

theorem requestAccountClosure_calls (accountId : AccountId) (reason : Option String) :
    (requestAccountClosure accountId reason).Calls (Op.within k) := by
  refine (calls_plain rfl).bind fun target => ?_
  split
  · trivial
  · split
    · trivial
    · refine (calls_plain rfl).bind fun existing => ?_
      split
      · trivial
      · exact (calls_plain rfl).bind fun _ => calls_plain rfl

theorem cancelAccountClosure_calls : (cancelAccountClosure accountId).Calls (Op.within k) := by
  refine (calls_plain rfl).bind fun pending => ?_
  split
  · trivial
  · refine (calls_plain rfl).bind fun now => ?_
    refine (calls_plain rfl).bind fun cancelled => ?_
    split <;> trivial

theorem decideRequest_calls (requestId : RequestId) (reviewer : AccountId) (decision : Decision)
    (note : Option String) : (decideRequest requestId reviewer decision note).Calls (Op.within k) := by
  refine (calls_plain rfl).bind fun decidedAt => ?_
  refine (calls_plain rfl).bind fun decided => ?_
  split <;> trivial

theorem decideAccountClosureRequest_calls (requestId : RequestId) (reviewer : AccountId) (decision : Decision)
    (note : Option String) : (decideAccountClosureRequest requestId reviewer decision note).Calls (Op.within k) := by
  refine (calls_plain rfl).bind fun request => ?_
  split
  · trivial
  · split
    · trivial
    · split
      · refine Prog.Calls.bind ?_ fun _ => decideRequest_calls ..
        refine (calls_plain rfl).bind fun target => ?_
        split
        · trivial
        · exact revokeAllSessions_calls _
      · exact decideRequest_calls ..

theorem openAccountRecoveryCase_calls :
    (openAccountRecoveryCase accountId).Calls (Op.within .opening) := by
  refine (calls_plain rfl).bind fun target => ?_
  split
  · trivial
  · split
    · trivial
    · split
      · trivial
      · refine (calls_plain rfl).bind fun existingOpenCase => ?_
        split
        · trivial
        · refine (calls_plain rfl).bind fun openedAt => ?_
          refine (revokeAllSessions_calls _).bind fun _ => ?_
          refine (Prog.calls_perform (.inr rfl)).bind fun created => ?_
          exact (notify_calls ..).bind fun _ => trivial

theorem createRecoveryDiditSession_calls :
    (createRecoveryDiditSession caseId).Calls (Op.within k) := by
  refine (calls_plain rfl).bind fun existingCase => ?_
  split
  · trivial
  · split
    · trivial
    · refine (calls_plain rfl).bind fun diditReference => ?_
      refine (calls_plain rfl).bind fun updated => ?_
      split <;> trivial

theorem recordPrimaryRecoveryReview_calls (caseId : CaseId) (actor : AccountId) :
    (recordPrimaryRecoveryReview caseId actor).Calls (Op.within k) := by
  refine (calls_plain rfl).bind fun updated => ?_
  split <;> trivial

theorem decideAccountRecoveryCase_calls (caseId : CaseId) (actor : AccountId) (decision : Decision) :
    (decideAccountRecoveryCase caseId actor decision).Calls (Op.within k) := by
  refine (calls_plain rfl).bind fun existingCase => ?_
  split
  · trivial
  · split
    · trivial
    · refine (calls_plain rfl).bind fun now => ?_
      refine (calls_plain rfl).bind fun updated => ?_
      split
      · trivial
      · refine (calls_plain rfl).bind fun target => ?_
        exact (notify_calls ..).bind fun _ => trivial

theorem notifyCompleted_calls (caseId : CaseId) (target : Account) :
    (notifyCompleted caseId target).Calls (Op.within k) := by
  unfold notifyCompleted
  split
  · exact notify_calls ..
  · exact (notify_calls ..).bind fun _ => attempt_calls (calls_plain rfl)

theorem endOldAccess_calls (caseId : CaseId) (target : Account) :
    (endOldAccess caseId target).Calls (Op.within .completion) := by
  unfold endOldAccess
  split
  · exact sendRecoveryCompletionEmail_calls.catchWith fun _ => trivial
  · refine Prog.Calls.catchWith ?_ fun _ => trivial
    refine (Prog.calls_perform (.inr rfl)).bind fun _ => ?_
    refine revokeSessionsForRecoveryCompletion_calls.bind fun _ => ?_
    refine (calls_plain rfl).bind fun _ => ?_
    exact (clearRecoveryRequired_calls _).bind fun _ => calls_plain rfl

theorem completeAccountRecovery_calls :
    (completeAccountRecovery caseId).Calls (Op.within .completion) := by
  refine (calls_plain rfl).bind fun existingCase => ?_
  split
  · trivial
  · split
    · trivial
    · refine (calls_plain rfl).bind fun target => ?_
      split
      · trivial
      · refine (calls_plain rfl).bind fun completedAt => ?_
        refine (endOldAccess_calls ..).bind fun _ => ?_
        refine (Prog.calls_perform (.inr rfl)).bind fun updated => ?_
        split
        · trivial
        · exact (notifyCompleted_calls ..).bind fun _ => trivial

theorem offboardStaffAccount_calls (accountId actor : AccountId) :
    (offboardStaffAccount accountId actor).Calls (Op.within .offboarding) := by
  unfold offboardStaffAccount
  split
  · trivial
  · refine (calls_plain rfl).bind fun target => ?_
    split
    · trivial
    · refine (calls_plain rfl).bind fun completedAt => ?_
      exact (disableAndRevoke_calls ..).bind fun _ => Prog.calls_perform (.inr rfl)

theorem loginDevice_calls :
    (loginDevice policy input).Calls (Op.within k) := by
  refine (calls_plain rfl).bind fun device => ?_
  split
  · trivial
  · split
    · trivial
    · unfold verifyLogin
      split
      · trivial
      · refine (calls_plain rfl).bind fun consumed => ?_
        split
        · refine (calls_plain rfl).bind fun verified => ?_
          split
          · refine (calls_plain rfl).bind fun now => ?_
            exact (calls_plain rfl).bind fun _ => trivial
          · trivial
        · exact (calls_plain rfl).bind fun recentlyUsed => trivial

theorem finishLogin_calls (device : Device) (dpopJkt : Jkt) : (finishLogin device dpopJkt).Calls (Op.within k) := by
  refine (calls_plain rfl).bind fun user => ?_
  split
  · trivial
  · refine (calls_plain rfl).bind fun _ => ?_
    refine attempt_calls ?_
    refine (calls_plain rfl).bind fun sessions => ?_
    refine (calls_plain rfl).bind fun now => ?_
    exact Prog.Calls.foldlM (fun _ earlier => attempt_calls (calls_plain rfl)) _ ()

theorem createSession_calls :
    (createSession device dpopJkt).Calls (Op.within .login) := by
  refine (calls_plain rfl).bind fun user => ?_
  split
  · trivial
  · split
    · trivial
    · split
      · trivial
      · exact Prog.calls_perform (.inr rfl)

theorem discardCeremonySession_calls (session : AuthSession) (error : Failure) :
    (discardCeremonySession session error).Calls (Op.within k) :=
  (attempt_calls (calls_plain rfl)).bind fun _ => trivial

theorem loginVerify_calls (policy : List MobilePlatform) (input : LoginInput) :
    (loginVerify policy input).Calls (Op.within .login) := by
  refine (calls_plain rfl).bind fun _ => ?_
  refine loginDevice_calls.bind fun device => ?_
  refine (calls_plain rfl).bind fun account => ?_
  split
  · trivial
  · split
    · trivial
    · refine createSession_calls.bind fun session => ?_
      exact (finishLogin_calls ..).catchWith fun error => discardCeremonySession_calls session error

/-- The one kind of call that a job makes besides the plain ones. -/
def Job.kind : Job → Kind
  | .openRecovery _ => .opening
  | .offboard .. => .offboarding
  | .completeRecovery _ => .completion
  | .login .. => .login
  | _ => .plain

/-- Each job makes only calls of its own kind. -/
theorem Job.calls (j : Job) : j.program.Calls (Op.within j.kind) := by
  cases j with
  | requestClosure => exact (requestAccountClosure_calls ..).bind fun _ => trivial
  | cancelClosure => exact cancelAccountClosure_calls.bind fun _ => trivial
  | decideClosure =>
    exact (decideAccountClosureRequest_calls ..).bind fun _ => trivial
  | openRecovery => exact openAccountRecoveryCase_calls.bind fun _ => trivial
  | createDiditSession => exact createRecoveryDiditSession_calls.bind fun _ => trivial
  | primaryReview => exact (recordPrimaryRecoveryReview_calls ..).bind fun _ => trivial
  | decideRecovery => exact (decideAccountRecoveryCase_calls ..).bind fun _ => trivial
  | completeRecovery => exact completeAccountRecovery_calls.bind fun _ => trivial
  | offboard => exact offboardStaffAccount_calls ..
  | login => exact loginVerify_calls ..

end AccountLifecycle
