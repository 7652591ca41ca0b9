import ZkUnderwrite.Lib.Bytes
import ZkUnderwrite.Lib.BigEndian
import ZkUnderwrite.Lib.Digest
import ZkUnderwrite.Lib.Prefix
import ZkUnderwrite.Lib.Groth16
import ZkUnderwrite.Lib.While
import ZkUnderwrite.Lib.Machine
import ZkUnderwrite.Lib.Progress
import ZkUnderwrite.Lib.Schedule
import ZkUnderwrite.Lib.Projection
import ZkUnderwrite.Lib.Transaction
import ZkUnderwrite.Lib.Relational
import ZkUnderwrite.Lib.Spend
import ZkUnderwrite.Lib.Serde
import ZkUnderwrite.Lib.Files
import ZkUnderwrite.Lib.Hex
import ZkUnderwrite.Contract.Storage
import ZkUnderwrite.Contract.Host
import ZkUnderwrite.Contract.Journal
import ZkUnderwrite.Contract.EntryPoints
import ZkUnderwrite.Contract.Policy
import ZkUnderwrite.Contract.Effects
import ZkUnderwrite.Contract.History
import ZkUnderwrite.Contract.Token
import ZkUnderwrite.Contract.Claims
import ZkUnderwrite.Contract.Requests
import ZkUnderwrite.Contract.Lemmas.Host
import ZkUnderwrite.Contract.Lemmas.Journal
import ZkUnderwrite.Contract.Lemmas.EntryPoints
import ZkUnderwrite.Contract.Lemmas.Effects
import ZkUnderwrite.Contract.Lemmas.History
import ZkUnderwrite.Contract.Lemmas.Handover
import ZkUnderwrite.Contract.Lemmas.Outcomes
import ZkUnderwrite.Contract.Lemmas.Accounting
import ZkUnderwrite.Contract.Lemmas.Claims
import ZkUnderwrite.Contract.Lemmas.Requests
import ZkUnderwrite.Contract.Lemmas.TwoRuns
import ZkUnderwrite.Contract.Theorems
import ZkUnderwrite.Guest.Statement
import ZkUnderwrite.Guest.Main
import ZkUnderwrite.Guest.Lemmas.Main
import ZkUnderwrite.Issuer.Statement
import ZkUnderwrite.Issuer.Sign
import ZkUnderwrite.Issuer.Calls
import ZkUnderwrite.Issuer.Lemmas.Sign
import ZkUnderwrite.Issuer.Lemmas.Calls
import ZkUnderwrite.Issuer.Theorems
import ZkUnderwrite.Verifier.Receipt
import ZkUnderwrite.Verifier.Host
import ZkUnderwrite.Verifier.Groth16
import ZkUnderwrite.Verifier.Build
import ZkUnderwrite.Verifier.Curve
import ZkUnderwrite.Verifier.Mock
import ZkUnderwrite.Verifier.Router
import ZkUnderwrite.Verifier.EmergencyStop
import ZkUnderwrite.Verifier.Network
import ZkUnderwrite.Verifier.Lemmas.Receipt
import ZkUnderwrite.Verifier.Lemmas.Groth16
import ZkUnderwrite.Verifier.Lemmas.Build
import ZkUnderwrite.Verifier.Lemmas.Router
import ZkUnderwrite.Verifier.Lemmas.Network
import ZkUnderwrite.Verifier.Lemmas.Runs
import ZkUnderwrite.Verifier.Lemmas.Query
import ZkUnderwrite.Verifier.Parameters
import ZkUnderwrite.Verifier.Theorems
import ZkUnderwrite.Verifier.Acceptance
import ZkUnderwrite.Timelock.Host
import ZkUnderwrite.Timelock.Controller
import ZkUnderwrite.Timelock.Proposal
import ZkUnderwrite.Timelock.Lemmas.Controller
import ZkUnderwrite.Timelock.Lemmas.Effects
import ZkUnderwrite.Timelock.Lemmas.Runs
import ZkUnderwrite.Timelock.Theorems
import ZkUnderwrite.Borrower.Host
import ZkUnderwrite.System.Deployment
import ZkUnderwrite.System.Format
import ZkUnderwrite.System.Lemmas.Soundness
import ZkUnderwrite.System.Theorems
import ZkUnderwrite.System.Disclosure
import ZkUnderwrite.System.Stack
import ZkUnderwrite.System.Lemmas.Stack
import ZkUnderwrite.System.Anchors
import ZkUnderwrite.System.Lemmas.Backing
import ZkUnderwrite.System.Verification
import ZkUnderwrite.System.Completeness
import ZkUnderwrite.System.Governance
