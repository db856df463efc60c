import CertWatch.Main
import CertWatch.Rehearsal.Services
import CertWatch.Proofs.Allocation.Agreement
import CertWatch.Proofs.Allocation.Courses
import CertWatch.Proofs.Allocation.Creation
import CertWatch.Proofs.Allocation.Fleet
import CertWatch.Proofs.Allocation.Moves
import CertWatch.Proofs.Allocation.Results
import CertWatch.Proofs.Allocation.Return
import CertWatch.Proofs.Allocation.Stages
import CertWatch.Proofs.Allocation.Writers
import CertWatch.Proofs.Base64
import CertWatch.Proofs.Bus.Delivery
import CertWatch.Proofs.Bus.Performing
import CertWatch.Proofs.Bus.Registry
import CertWatch.Proofs.Changes
import CertWatch.Proofs.Json.Object
import CertWatch.Proofs.Json.Quoted
import CertWatch.Proofs.Json.Text
import CertWatch.Proofs.KeyPath
import CertWatch.Proofs.Lease.Claims
import CertWatch.Proofs.Lease.Custody
import CertWatch.Proofs.Lease.Exclusion
import CertWatch.Proofs.Lease.Renewal
import CertWatch.Proofs.Lease.Return
import CertWatch.Proofs.Lease.Service
import CertWatch.Proofs.Lease.Tenancy
import CertWatch.Proofs.Line
import CertWatch.Proofs.Loop.Course
import CertWatch.Proofs.Loop.Discipline
import CertWatch.Proofs.Loop.Shutdown
import CertWatch.Proofs.Plan
import CertWatch.Proofs.Prefix
import CertWatch.Proofs.Reader.Inquiries
import CertWatch.Proofs.Reader.Flight
import CertWatch.Proofs.Run
import CertWatch.Proofs.Table
import CertWatch.Proofs.Text.Utf8
import CertWatch.Proofs.Time.Calendar
import CertWatch.Proofs.Time.Offset
import CertWatch.Proofs.Time.Text
import CertWatch.Proofs.Watch.Listing
import CertWatch.Proofs.Watch.Polling
import CertWatch.Proofs.Watch.Snapshot
import CertWatch.Proofs.Time.Order
import CertWatch.Proofs.Watch.Candidates
import CertWatch.Proofs.Watch.Choice
import CertWatch.Proofs.Watch.Assembly
import CertWatch.Proofs.Watch.Isolation
import CertWatch.Proofs.Digest
import CertWatch.Proofs.Envelope
import CertWatch.Proofs.Watch.Neighbours
import CertWatch.Proofs.Sealing
import CertWatch.Proofs.Wrapping
import CertWatch.Proofs.Watch.Reading
import CertWatch.Proofs.Watch.Rewriting
import CertWatch.Proofs.Watch.Tracing
import CertWatch.Proofs.Watch.Detection
import CertWatch.Proofs.Watch.Current
import CertWatch.Proofs.Watch.Layout
import CertWatch.Proofs.Bus.Chronicle
import CertWatch.Proofs.Bus.Membership
import CertWatch.Proofs.Bus.Buffers
import CertWatch.Proofs.Bus.Streams
import CertWatch.Proofs.DecryptLog
import CertWatch.Proofs.Comparison
import CertWatch.Proofs.Watch.Contents
import CertWatch.Proofs.Malformed
import CertWatch.Proofs.Lease.Attempts
import CertWatch.Proofs.Lease.Performance
import CertWatch.Proofs.Lease.Requests
import CertWatch.Proofs.Secret
import CertWatch.Proofs.Job
import CertWatch.Proofs.Service
import CertWatch.Proofs.Allocation.Alone
import CertWatch.Proofs.Json.Layout
import CertWatch.Proofs.Config.Written
import CertWatch.Proofs.Config.Revision
import CertWatch.Proofs.Time.Spelling
