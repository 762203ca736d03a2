import CommandLauncher.Main
import CommandLauncher.Number.Shortest
import CommandLauncher.Proofs.Occurrences
import CommandLauncher.Proofs.Findings
import CommandLauncher.Proofs.Sessions
import CommandLauncher.Proofs.Prompting
import CommandLauncher.Proofs.Choosing
import CommandLauncher.Proofs.Trees
import CommandLauncher.Proofs.Running
import CommandLauncher.Proofs.PrintedJson
import CommandLauncher.Proofs.ReadsBack
import CommandLauncher.Proofs.Rewriting
import CommandLauncher.Proofs.Placing
import CommandLauncher.Proofs.Forms
import CommandLauncher.Proofs.Parts
import CommandLauncher.Proofs.Refreshing
import CommandLauncher.Proofs.Updating
import CommandLauncher.Proofs.Removing
import CommandLauncher.Proofs.Dialogs
import CommandLauncher.Proofs.Reporting
import CommandLauncher.Proofs.Shadowing
import CommandLauncher.Proofs.NodeValues
import CommandLauncher.Proofs.RoundTrip
import CommandLauncher.Proofs.WellFormed
import CommandLauncher.Proofs.Locations
import CommandLauncher.Proofs.StateFile
import CommandLauncher.Proofs.Toggling
import CommandLauncher.Proofs.Histories
import CommandLauncher.Proofs.Telling
import CommandLauncher.Proofs.Viewing
import CommandLauncher.Proofs.KeyOrder
import CommandLauncher.Proofs.Groups
import CommandLauncher.Proofs.Addresses
import CommandLauncher.Proofs.Outlines
import CommandLauncher.Proofs.Arranging
import CommandLauncher.Proofs.Rebuilding
import CommandLauncher.Proofs.Alphabetical
import CommandLauncher.Proofs.Accepting
import CommandLauncher.Proofs.Writing
import CommandLauncher.Proofs.Options
import CommandLauncher.Proofs.Enter
import CommandLauncher.Proofs.FailedToggles
import CommandLauncher.Proofs.Published
import CommandLauncher.Proofs.Agreeing
import CommandLauncher.Proofs.Conforming
import CommandLauncher.Proofs.Effective
import CommandLauncher.Proofs.Uses
import CommandLauncher.Proofs.Coloring
import CommandLauncher.Proofs.Nearest
import CommandLauncher.Proofs.OnePass
import CommandLauncher.Proofs.Reach
import CommandLauncher.Proofs.Loading
