import ZkUnderwrite.Contract.Policy

/-!
# The effect of a successful call

`Effect P w i r w'`: in the state `w`, the call `i` can succeed with the result `r` and the new
state `w'`. There is one rule for each entry point, with all its checks as premises.
-/

namespace ZkUnderwrite.Contract
open ByteString

variable {τ : Type}

def World.install (w : World τ) (admin : Address) (p : Policy) : World τ :=
  (((((w.setInstance .admin admin).setInstance .router p.router).setInstance .imageId
    p.imageId).setInstance .usdc p.usdc).setInstance .requiredThreshold
    p.requiredThreshold).setInstance .creditAmount p.creditAmount

inductive Effect (P : Platform τ) (w : World τ) (i : Invocation) : Ret → World τ → Prop where
  | init {a p} :
      i.call = .init a p.router p.imageId p.usdc p.requiredThreshold p.creditAmount →
      w.admin = none → i.authorized a = true → Effect P w i .unit (w.install a p)
  | registerIssuer {h a} :
      i.call = .registerIssuer h → w.admin = some a → i.authorized a = true →
      Effect P w i .unit
        ((w.setPersistent (.issuer h) true).publish ⟨"iss_reg", .bytesN h, .address a⟩)
  | unregisterIssuer {h a} :
      i.call = .unregisterIssuer h → w.admin = some a → i.authorized a = true →
      Effect P w i .unit
        ((w.removePersistent (.issuer h)).publish ⟨"iss_unreg", .bytesN h, .address a⟩)
  | proposeAdmin {p a} :
      i.call = .proposeAdmin p → w.admin = some a → i.authorized a = true →
      Effect P w i .unit
        ((w.setInstance .pendingAdmin p).publish ⟨"adm_prop", .address a, .address p⟩)
  | acceptAdmin {p a} :
      i.call = .acceptAdmin → w.admin = some a → w.pendingAdmin = some p → i.authorized p = true →
      Effect P w i .unit
        (((w.setInstance .admin p).removeInstance .pendingAdmin).publish
          ⟨"adm_acc", .address a, .address p⟩)
  | cancelAdminProposal {p a} :
      i.call = .cancelAdminProposal → w.admin = some a → i.authorized a = true →
      w.pendingAdmin = some p →
      Effect P w i .unit
        ((w.removeInstance .pendingAdmin).publish ⟨"adm_cncl", .address a, .address p⟩)
  | requestCredit {b s p t} {j : BytesN journalLen} :
      i.call = .requestCredit b s j.val → Configured w p → i.authorized b = true →
      i.verify p.router s p.imageId (P.sha256 j.val) = true →
      policyError w p (Journal.parse j) = none →
      P.transfer p.usdc w.token P.currentContractAddress b p.creditAmount = some t →
      Effect P w i (.amount p.creditAmount)
        ((w.logRouterCall ⟨p.router, s, p.imageId, P.sha256 j.val⟩).payOut p b
          (Journal.parse j).nullifier t)
  | creditLine {b} : i.call = .creditLine b → Effect P w i (.amount ((w.credit b).getD 0)) w

end ZkUnderwrite.Contract
