import HotkeyScript.FileTree
import HotkeyScript.Main
import HotkeyScript.Record
import HotkeyScript.Proofs.Lists
import HotkeyScript.Proofs.Half.SideRuns
import HotkeyScript.Proofs.Half.Refusal
import HotkeyScript.Proofs.Half.Spelled
import HotkeyScript.Proofs.Half.Concatenation
import HotkeyScript.Proofs.Declaration.Grammar
import HotkeyScript.Proofs.Declaration.Spelled
import HotkeyScript.Proofs.Declaration.Image
import HotkeyScript.Proofs.Declaration.RoundTrip
import HotkeyScript.Proofs.Declaration.Body
import HotkeyScript.Proofs.Declaration.Alike
import HotkeyScript.Proofs.Hotkey.Description
import HotkeyScript.Proofs.Statement.Agreement
import HotkeyScript.Outline.Edit
import HotkeyScript.Proofs.Outline.Graft
import HotkeyScript.Proofs.Outline.WellFormed
import HotkeyScript.Proofs.Outline.Entries
import HotkeyScript.Proofs.Outline.Walk
import HotkeyScript.Proofs.Outline.Flat
import HotkeyScript.Proofs.Outline.Levels
import HotkeyScript.Proofs.Outline.LevelOrder
import HotkeyScript.Proofs.Outline.Search
import HotkeyScript.Proofs.Outline.Insertion
import HotkeyScript.Proofs.Reading.Lines
import HotkeyScript.Reading.Session
import HotkeyScript.Proofs.Reading.Session
import HotkeyScript.Proofs.Text.Lines
import HotkeyScript.Proofs.Text.Layout
import HotkeyScript.Proofs.Text.Trim
import HotkeyScript.Proofs.Text.LowerCase
import HotkeyScript.Proofs.Reading.InTurn
import HotkeyScript.Proofs.Reading.Missed
import HotkeyScript.Proofs.Reading.Accounting
import HotkeyScript.Proofs.Reading.LaidOut
import HotkeyScript.Proofs.Reading.Alike
import HotkeyScript.Proofs.Statement.Recognition
import HotkeyScript.Proofs.Reading.Reread
import HotkeyScript.Proofs.Modifier.Listing
import HotkeyScript.Proofs.Modifier.Relisting
import HotkeyScript.Proofs.Json.Number
import HotkeyScript.Proofs.Json.Quoted
import HotkeyScript.Proofs.Json.Token
import HotkeyScript.Proofs.Json.Value
import HotkeyScript.Proofs.Json.Members
import HotkeyScript.Proofs.Json.Presentation
import HotkeyScript.Proofs.Record.Presentation
import HotkeyScript.Proofs.Record.RoundTrip
import HotkeyScript.Proofs.Record.Report
import HotkeyScript.Proofs.Script.Load
import HotkeyScript.Proofs.Trace.Report
import HotkeyScript.Proofs.CommandLine.Agreement
import HotkeyScript.Proofs.CommandLine.Listing
import HotkeyScript.Proofs.CommandLine.Decoration
import HotkeyScript.Proofs.Terminal.Strip
