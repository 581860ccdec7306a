import AgentRelay.Activity.Id
import AgentRelay.Agent.Command
import AgentRelay.Agent.Turn
import AgentRelay.Deadline.Race
import AgentRelay.Diagnosis
import AgentRelay.Event.Rules
import AgentRelay.Job.Line
import AgentRelay.Proofs.Activity.Key
import AgentRelay.Proofs.Agent.Log
import AgentRelay.Proofs.Agent.Prompt
import AgentRelay.Proofs.Agent.Turn
import AgentRelay.Proofs.Deadline.Watch
import AgentRelay.Proofs.Diagnosis.Context
import AgentRelay.Proofs.Diagnosis.Summary
import AgentRelay.Proofs.Diagnosis.Wrapped
import AgentRelay.Proofs.Job.Identity
import AgentRelay.Proofs.Job.Newer
import AgentRelay.Proofs.Job.Payload
import AgentRelay.Proofs.Queue.Closing
import AgentRelay.Proofs.Queue.Cursor
import AgentRelay.Proofs.Queue.Cycles
import AgentRelay.Proofs.Queue.Recovery
import AgentRelay.Proofs.Queue.Reference
import AgentRelay.Proofs.Queue.Shutdown
import AgentRelay.Proofs.Queue.Torn
import AgentRelay.Proofs.Queue.Writers
import AgentRelay.Proofs.Session.Accepted
import AgentRelay.Proofs.Session.Heard
import AgentRelay.Proofs.Session.OwnKeys
import AgentRelay.Proofs.Settings.Usable
import AgentRelay.Proofs.Tracker.Chunks
import AgentRelay.Proofs.Tracker.Client
import AgentRelay.Proofs.Tracker.Content
import AgentRelay.Proofs.Tracker.Links
import AgentRelay.Proofs.Webhook.Receive
import AgentRelay.Queue.Dispatcher
import AgentRelay.Queue.Intake
import AgentRelay.Service
import AgentRelay.Settings.Basic
import AgentRelay.StandIn.Program
import AgentRelay.Tracker.Client
import AgentRelay.Webhook.Receive
