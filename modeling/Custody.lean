import Custody.Session
import Custody.Proofs.Grants
import Custody.Proofs.Atomicity
import Custody.Proofs.Disturbance
import Custody.Proofs.Depot.Forms
import Custody.Proofs.Depot.Refusals
import Custody.Proofs.Hands
import Custody.Proofs.Workspaces
import Custody.Proofs.Honesty
import Custody.Proofs.Operations
import Custody.Proofs.Ledger
import Custody.Proofs.Depot.Contents
import Custody.Proofs.Depot.Copying
import Custody.Proofs.Depot.Releasing
import Custody.Proofs.Depot.Making
import Custody.Proofs.Soundness
import Custody.Proofs.Depot.Tameness
import Custody.Proofs.Truthfulness
import Custody.Proofs.Sessions
import Custody.Proofs.Accounting
import Custody.Proofs.Depot.Nesting
import Custody.Proofs.Leaks
import Custody.Proofs.Adoption
import Custody.Proofs.Provision
import Custody.Proofs.Degradation
import Custody.Proofs.Depot.Changes
import Custody.Proofs.Depot.Uniformity
import Custody.Proofs.Firmness
import Custody.Proofs.Postings
import Custody.Proofs.Independence
import Custody.Proofs.Phrases
import Custody.Proofs.Speeches
import Custody.Proofs.Logs
import Custody.Proofs.Nulls
import Custody.Proofs.Depot.Oblivion
import Custody.Proofs.Traceless
import Custody.Proofs.Depot.Hanging
import Custody.Proofs.DropOrder
import Custody.Proofs.Statuses
import Custody.Proofs.Pushes
import Custody.Proofs.Updates
import Custody.Proofs.Fallbacks
import Custody.Proofs.ElementTypes
import Custody.Proofs.Replacement
import Custody.Proofs.Construction
