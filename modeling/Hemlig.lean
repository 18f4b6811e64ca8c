import Hemlig.Concurrent.Amid
import Hemlig.Concurrent.Monotone
import Hemlig.Console.CursorPages
import Hemlig.Console.DotEnv
import Hemlig.Controller.Cluster
import Hemlig.Controller.Passes
import Hemlig.Controller.Reconcile
import Hemlig.Handlers.Notifications
import Hemlig.Invariant.Cluster
import Hemlig.Invariant.Passes
import Hemlig.Properties.AclLimit
import Hemlig.Properties.AgentReads
import Hemlig.Properties.AgentScopes
import Hemlig.Properties.Announcements
import Hemlig.Properties.AuditListing
import Hemlig.Properties.Authorization
import Hemlig.Properties.Catalog
import Hemlig.Properties.Changes
import Hemlig.Properties.Checkpoints
import Hemlig.Properties.CommitOnce
import Hemlig.Properties.Documents
import Hemlig.Properties.Envelopes
import Hemlig.Properties.IdentityMigration
import Hemlig.Properties.Notifications
import Hemlig.Properties.Ownership
import Hemlig.Properties.Payloads
import Hemlig.Properties.Publication
import Hemlig.Properties.Recovery
import Hemlig.Properties.Rejection
import Hemlig.Properties.RetentionProgress
import Hemlig.Properties.Routes
import Hemlig.Properties.StableJson
import Hemlig.Properties.SyncPrivacy
import Hemlig.Properties.UidMigration
import Hemlig.Verification.Checkpoints
import Hemlig.Verification.Cycles
import Hemlig.Verification.Passes
import Hemlig.Verification.ReconcileAll
