import CommandGrammar.Main
import CommandGrammar.Proofs.Alternatives
import CommandGrammar.Proofs.Embedded
import CommandGrammar.Proofs.Ownership
import CommandGrammar.Proofs.ReadBack
import CommandGrammar.Proofs.Spelling
import CommandGrammar.Proofs.Termination
import CommandGrammar.Proofs.Expiry
import CommandGrammar.Proofs.OptionLines
import CommandGrammar.Proofs.Descriptions
import CommandGrammar.Proofs.Respelling
import CommandGrammar.Proofs.Rows
import CommandGrammar.Proofs.Tables
import CommandGrammar.Proofs.Backtracking
import CommandGrammar.Proofs.Operands
import CommandGrammar.Proofs.Reordering
import CommandGrammar.Proofs.Interchange
import CommandGrammar.Proofs.Clusters
import CommandGrammar.Proofs.ValueForms
import CommandGrammar.Proofs.Discovered
import CommandGrammar.Proofs.Filling
import CommandGrammar.Proofs.EntryDescriptors
import CommandGrammar.Proofs.Listings
import CommandGrammar.Proofs.Sections
import CommandGrammar.Proofs.OptionWords
import CommandGrammar.Proofs.Copies
import CommandGrammar.Proofs.Naming
import CommandGrammar.Proofs.Loading
import CommandGrammar.Proofs.Cleaning
import CommandGrammar.Proofs.Placeholders
import CommandGrammar.Proofs.Enumerations
import CommandGrammar.Proofs.Generators
import CommandGrammar.Proofs.Lifetimes
import CommandGrammar.Proofs.Narrowing
import CommandGrammar.Proofs.NoteWidth
