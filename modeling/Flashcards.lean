import Flashcards.Main
import Flashcards.Proofs.Contents
import Flashcards.Proofs.Listing
import Flashcards.Watch.History
import Flashcards.Proofs.Prefixes
import Flashcards.Proofs.Diagnosis
import Flashcards.Proofs.Files
import Flashcards.Proofs.Interleavings
import Flashcards.Proofs.Histories
import Flashcards.Proofs.Renderings
import Flashcards.Proofs.Courses
import Flashcards.Proofs.Delivery
import Flashcards.Proofs.ClosedOutput
import Flashcards.Proofs.Requests
import Flashcards.Proofs.Joining
import Flashcards.Proofs.LineEnds
import Flashcards.Proofs.Insertions
import Flashcards.Proofs.Replacements
import Flashcards.Proofs.Rereading
import Flashcards.Proofs.Reports
import Flashcards.Proofs.Separators
import Flashcards.Proofs.LiveDigits
import Flashcards.Proofs.Unmarking
import Flashcards.Proofs.Wordings
import Flashcards.Proofs.Creation
import Flashcards.Proofs.Extensions
import Flashcards.Proofs.Displays
import Flashcards.Proofs.Saving
import Flashcards.Proofs.SpelledCommands
import Flashcards.Proofs.Numerals
import Flashcards.Proofs.Triples
import Flashcards.Proofs.Words
