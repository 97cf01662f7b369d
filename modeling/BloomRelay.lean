import BloomRelay.Lib.Table
import BloomRelay.Lib.Proofs.TableProofs
import BloomRelay.Lib.Run
import BloomRelay.Lib.Checked
import BloomRelay.Lib.Decimal
import BloomRelay.Protocol.Basic
import BloomRelay.Store.Schema
import BloomRelay.Store.Credentials
import BloomRelay.Store.Installations
import BloomRelay.Store.Challenges
import BloomRelay.Store.Bootstrap
import BloomRelay.Store.Ct
import BloomRelay.Store.Ops
import BloomRelay.Store.Proofs.OpProofs
import BloomRelay.Store.Proofs.BookProofs
import BloomRelay.Store.Proofs.EffectProofs
import BloomRelay.Store.Lifecycle
import BloomRelay.Store.Proofs.LifecycleProofs
import BloomRelay.Store.Proofs.FencingProofs
import BloomRelay.Store.Proofs.CredentialProofs
import BloomRelay.Store.Proofs.RetirementProofs
import BloomRelay.Restore.Witness
import BloomRelay.Restore.Machine
import BloomRelay.Restore.Proofs.WitnessProofs
import BloomRelay.Restore.Proofs.MachineProofs
import BloomRelay.Restore.Proofs.AdvanceProofs
import BloomRelay.Restore.Service
import BloomRelay.Restore.Proofs.LoneProofs
import BloomRelay.Restore.Proofs.RollbackProofs
import BloomRelay.Restore.Stale
import BloomRelay.Restore.Proofs.StaleProofs
import BloomRelay.Restore.Proofs.RefusalProofs
import BloomRelay.Gateway.Machine
import BloomRelay.Lib.Exclusive
import BloomRelay.Gateway.Proofs.StepProofs
import BloomRelay.Gateway.Proofs.TicketProofs
import BloomRelay.Gateway.Proofs.RoutingProofs
import BloomRelay.Gateway.Proofs.SessionProofs
import BloomRelay.Protocol.Auth
import BloomRelay.Control.Admin
import BloomRelay.Control.Proofs.AdminProofs
import BloomRelay.Store.Proofs.ChallengeProofs
import BloomRelay.Dns.Records
import BloomRelay.Control.DnsWorker
import BloomRelay.Store.Proofs.QueueProofs
import BloomRelay.Control.Proofs.WorkerProofs
import BloomRelay.Control.Proofs.AuthorityProofs
import BloomRelay.Control.Proofs.ReadinessProofs
import BloomRelay.Control.Proofs.DnsReadyProofs
import BloomRelay.Store.Proofs.ChallengeSetProofs
import BloomRelay.Store.Requests
import BloomRelay.Protocol.Proofs.ByteProofs
import BloomRelay.Store.Proofs.OperationProofs
import BloomRelay.Store.Proofs.UnavailableProofs
import BloomRelay.Store.Proofs.DesiredProofs
import BloomRelay.Control.Proofs.JobProofs
import BloomRelay.Control.Proofs.ReconcileProofs
import BloomRelay.Gateway.Proofs.TunnelProofs
import BloomRelay.Lib.Permits
import BloomRelay.Gateway.Admission
import BloomRelay.Gateway.Proofs.AdmissionProofs
import BloomRelay.Gateway.Connection
import BloomRelay.Gateway.Proofs.ConnectionProofs
import BloomRelay.Lib.CreditFlow
import BloomRelay.Bridge.Machine
import BloomRelay.Bridge.Proofs.LoopProofs
import BloomRelay.Bridge.Proofs.BufferProofs
import BloomRelay.Bridge.Proofs.TransparencyProofs
import BloomRelay.Bridge.Proofs.ProgressProofs
import BloomRelay.Bridge.Mux
import BloomRelay.Bridge.Proofs.MuxProofs
import BloomRelay.Store.Overlap
import BloomRelay.Store.Proofs.OverlapProofs
import BloomRelay.Store.Proofs.ReplayProofs
import BloomRelay.Store.Proofs.AllocationProofs
import BloomRelay.Store.Proofs.RenewalProofs
import BloomRelay.Store.Proofs.QuotaProofs
import BloomRelay.Store.Proofs.ExpiryProofs
import BloomRelay.Lib.Lines
import BloomRelay.Protocol.ControlDecoder
import BloomRelay.Protocol.Proofs.ControlDecoderProofs
import BloomRelay.Dns.Cloudflare
import BloomRelay.Dns.Proofs.CloudflareProofs
import BloomRelay.Dns.Proofs.CaaProofs
import BloomRelay.Dns.Proofs.ConvergenceProofs
import BloomRelay.Dns.Memory
import BloomRelay.Dns.Route53
import BloomRelay.Dns.Proofs.ChallengeZoneProofs
import BloomRelay.Dns.Proofs.ChallengeProofs
import BloomRelay.Protocol.Proofs.ChunkingProofs
import BloomRelay.Lib.WindowQuota
import BloomRelay.Gateway.IngressQuota
import BloomRelay.Gateway.Proofs.IngressQuotaProofs
import BloomRelay.Control.Proofs.ClientAddrProofs
import BloomRelay.Control.Proofs.PublicationProofs
import BloomRelay.Ct.Monitor
import BloomRelay.Protocol.Receipt
import BloomRelay.Protocol.Proofs.ReceiptProofs
import BloomRelay.Ct.Proofs.ConsistencyProofs
import BloomRelay.Ct.Proofs.MonitorProofs
import BloomRelay.Ct.Worker
import BloomRelay.Ct.Proofs.TickProofs
import BloomRelay.Ct.Proofs.FingerprintProofs
import BloomRelay.Control.Proofs.NumberProofs
import BloomRelay.Store.Issuance
import BloomRelay.Store.Proofs.IssuanceProofs
import BloomRelay.Control.Handlers
import BloomRelay.Control.Proofs.RetryProofs
import BloomRelay.Lib.Locks
import BloomRelay.Lib.Proofs.LockOrderProofs
import BloomRelay.Store.Locks
import BloomRelay.Store.Proofs.LockProofs
import BloomRelay.Client.Basic
import BloomRelay.Client.Tunnel
import BloomRelay.Client.Proofs.TunnelProofs
import BloomRelay.Client.Proofs.OpenedProofs
import BloomRelay.Protocol.Proofs.TextProofs
import BloomRelay.Client.Rotation
import BloomRelay.Store.Proofs.LinearProofs
import BloomRelay.Store.Proofs.BackingProofs
import BloomRelay.Client.Proofs.RotationProofs
import BloomRelay.Control.Enrollment
import BloomRelay.Control.Proofs.EnrollmentProofs
