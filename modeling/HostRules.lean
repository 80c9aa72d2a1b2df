import HostRules.Main
import HostRules.Proofs.Addresses
import HostRules.Proofs.Checking
import HostRules.Proofs.Closed
import HostRules.Proofs.Closing
import HostRules.Proofs.Decoding
import HostRules.Proofs.Delimiters
import HostRules.Proofs.Diagnostics
import HostRules.Proofs.Edits
import HostRules.Proofs.Headers
import HostRules.Proofs.HostHeaders
import HostRules.Proofs.Progress
import HostRules.Proofs.Pruning
import HostRules.Proofs.Pulling
import HostRules.Proofs.Redeclared
import HostRules.Proofs.Reordering
import HostRules.Proofs.RepeatedHosts
import HostRules.Proofs.Sessions
import HostRules.Proofs.Siblings
import HostRules.Proofs.SinglePass
import HostRules.Proofs.WrittenBack
import HostRules.Text.Cursor
