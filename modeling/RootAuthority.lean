import RootAuthority.Bootstrap.Basic
import RootAuthority.CommandLine.Run
import RootAuthority.Main
import RootAuthority.Proofs.Bootstrap.Availability
import RootAuthority.Proofs.Bootstrap.Binding
import RootAuthority.Proofs.Calendar.Shift
import RootAuthority.Proofs.Certificate.Serial
import RootAuthority.Proofs.Mint.Content
import RootAuthority.Proofs.Mint.Window
import RootAuthority.Proofs.Der.Agreement
import RootAuthority.Proofs.Bootstrap.Usable
import RootAuthority.Bootstrap.Race
import RootAuthority.Proofs.Storage.Contents
import RootAuthority.Proofs.Bootstrap.Race
import RootAuthority.Proofs.Storage.Frame
import RootAuthority.Proofs.Bootstrap.Outcome
import RootAuthority.Proofs.Bootstrap.Frame
import RootAuthority.Session
import RootAuthority.Proofs.Session.Accounts
import RootAuthority.Proofs.Serial.Contention
import RootAuthority.Proofs.CommandLine.Run
import RootAuthority.Proofs.CommandLine.Rerun
import RootAuthority.Proofs.Bootstrap.Lifetime
import RootAuthority.Proofs.Config.Containment
import RootAuthority.Proofs.Config.Mintable
import RootAuthority.Proofs.Mint.Totality
import RootAuthority.Proofs.Config.Namespace
import RootAuthority.Proofs.Certificate.SelfSigned
import RootAuthority.Proofs.Bootstrap.Torn
import RootAuthority.Proofs.Bootstrap.Decision
import RootAuthority.Proofs.Certificate.TextualForm
import RootAuthority.Proofs.Storage.Resolution
import RootAuthority.Proofs.Config.RoundTrip
import RootAuthority.Proofs.Mint.Succession
import RootAuthority.Proofs.Mint.SerialNumber
