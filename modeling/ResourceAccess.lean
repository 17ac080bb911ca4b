import ResourceAccess.Main
import ResourceAccess.Proofs.Decision.Inherited
import ResourceAccess.Proofs.Decision.MostSpecific
import ResourceAccess.Proofs.Path.Chain
import ResourceAccess.Proofs.Path.Limit
import ResourceAccess.Proofs.Path.Order
import ResourceAccess.Proofs.Path.Subtree
import ResourceAccess.Proofs.PrivilegeName.Grammar
import ResourceAccess.Proofs.Session.Atomic
import ResourceAccess.Proofs.Session.Intact
import ResourceAccess.Proofs.Session.Builtin
import ResourceAccess.Proofs.Store.Candidates
import ResourceAccess.Proofs.Store.Cascade
import ResourceAccess.Proofs.Store.Conflict
import ResourceAccess.Proofs.Store.Purge
import ResourceAccess.Proofs.Store.Relevant
import ResourceAccess.Proofs.Store.Rooted
import ResourceAccess.Proofs.Store.Membership
import ResourceAccess.Proofs.Session.Membership
import ResourceAccess.Proofs.Store.Views
import ResourceAccess.Proofs.Session.Views
import ResourceAccess.Proofs.Session.Unavailable
import ResourceAccess.Proofs.Store.Direction
import ResourceAccess.Proofs.Store.Update
import ResourceAccess.Proofs.Store.Creation
import ResourceAccess.Proofs.Store.Renaming
import ResourceAccess.Proofs.Store.Replacement
import ResourceAccess.Proofs.Store.TopUp
import ResourceAccess.Proofs.Store.Seeded
import ResourceAccess.Proofs.Session.SetUp
import ResourceAccess.Proofs.Session.Stamped
import ResourceAccess.Proofs.CommandLine.Refinement
import ResourceAccess.Proofs.Config.Layers
import ResourceAccess.Proofs.Payload.Coding
