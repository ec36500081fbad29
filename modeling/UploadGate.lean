import UploadGate.Config.Environment
import UploadGate.Http.Service
import UploadGate.Timestamp.Reader
import UploadGate.Proofs.Deployment.Provenance
import UploadGate.Proofs.Token.Verification
import UploadGate.Proofs.Authorization.Agreement
import UploadGate.Proofs.Authorization.Outcomes
import UploadGate.Proofs.Metadata.Canonical
import UploadGate.Proofs.Metadata.Grammar
import UploadGate.Proofs.Metadata.Rewriting
import UploadGate.Proofs.Engine.Memory
import UploadGate.Proofs.Engine.Workload
import UploadGate.Proofs.Engine.Consistency
import UploadGate.Proofs.Engine.Lifecycle
import UploadGate.Proofs.Engine.Contents
import UploadGate.Proofs.Engine.Retention
import UploadGate.Proofs.Engine.Atomicity
import UploadGate.Proofs.Broadcast.Custody
import UploadGate.Proofs.Broadcast.Closing
import UploadGate.Proofs.Broadcast.Isolation
import UploadGate.Proofs.ProxyTrust.Canonical
import UploadGate.Proofs.ProxyTrust.Ranges
import UploadGate.Proofs.Peer
import UploadGate.Proofs.Http.Creation
import UploadGate.Proofs.Http.Refusals
import UploadGate.Proofs.Http.Description
import UploadGate.Proofs.Token.TimeClaims
import UploadGate.Proofs.Metadata.Fields
import UploadGate.Proofs.Http.Replay
import UploadGate.Proofs.Token.Introduction
import UploadGate.Proofs.Token.Validity
import UploadGate.Proofs.Http.Client
import UploadGate.Proofs.Config.Environment
import UploadGate.Proofs.Store
import UploadGate.Proofs.Deployment.Recording
import UploadGate.Proofs.Http.CrossOrigin
import UploadGate.Proofs.Config.Secrets
import UploadGate.Proofs.Config.Exactness
import UploadGate.Proofs.BasePath
import UploadGate.Proofs.Activity
import UploadGate.Proofs.Metadata.Values
import UploadGate.Proofs.Token.Strictness
