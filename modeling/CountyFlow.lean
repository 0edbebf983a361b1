import CountyFlow.Runtime.Terminal
import CountyFlow.Override.Finality
import CountyFlow.Worker.Decision
import CountyFlow.Worker.DeadLetters
import CountyFlow.Worker.Retry
import CountyFlow.Worker.Transparency
import CountyFlow.Memory.Agreement
import CountyFlow.Graph.Proposals
import CountyFlow.Operations.Inspection
import CountyFlow.Submission.Begin
import CountyFlow.Submission.Queued
import CountyFlow.Submission.Agreement
import CountyFlow.Breaker.Recovery
import CountyFlow.Security.Revoked
import CountyFlow.Security.Tickets
import CountyFlow.Events.Visibility
import CountyFlow.Operations.Reset
import CountyFlow.Publications.Single
import CountyFlow.Evidence.Readable
import CountyFlow.Streams.Deliveries
import CountyFlow.Audit.Approval
import CountyFlow.Audit.Records
import CountyFlow.Memory.Race
import CountyFlow.Memory.Resending
import CountyFlow.Road.Independence
import CountyFlow.Memory.Reload
import CountyFlow.Security.Admission
import CountyFlow.Override.Intervention
import CountyFlow.Graph.Scoring
import CountyFlow.Graph.RealRoads
import CountyFlow.Graph.Frozen
import CountyFlow.Security.Secrecy
import CountyFlow.Runtime.Ancestry
import CountyFlow.Events.InMemory
import CountyFlow.Locks.ExecutionLock
import CountyFlow.Road.Drawn
import CountyFlow.GraphMemory.ReadBack
import CountyFlow.AnomalyReports.Replay
