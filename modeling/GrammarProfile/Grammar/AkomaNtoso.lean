import GrammarProfile.Text.Lines

/-!
The grammar that comes with the library: the core of Akoma Ntoso 3.0.
-/
namespace GrammarProfile.Grammar

def akomaNtosoLines : List String := [
  "<?xml version=\"1.0\" encoding=\"UTF-8\"?>",
  "<xsd:schema xmlns:xsd=\"http://www.w3.org/2001/XMLSchema\"",
  "            xmlns=\"http://docs.oasis-open.org/legaldocml/ns/akn/3.0\"",
  "            targetNamespace=\"http://docs.oasis-open.org/legaldocml/ns/akn/3.0\"",
  "            elementFormDefault=\"qualified\">",
  "  <xsd:simpleType name=\"versionType\">",
  "    <xsd:restriction base=\"xsd:string\">",
  "      <xsd:enumeration value=\"originalVersion\"/>",
  "      <xsd:enumeration value=\"singleVersion\"/>",
  "      <xsd:enumeration value=\"multipleVersions\"/>",
  "    </xsd:restriction>",
  "  </xsd:simpleType>",
  "  <xsd:simpleType name=\"statusType\">",
  "    <xsd:restriction base=\"xsd:string\">",
  "      <xsd:enumeration value=\"removed\"/>",
  "      <xsd:enumeration value=\"temporarilyRemoved\"/>",
  "      <xsd:enumeration value=\"translated\"/>",
  "      <xsd:enumeration value=\"editorial\"/>",
  "      <xsd:enumeration value=\"edited\"/>",
  "      <xsd:enumeration value=\"verbatim\"/>",
  "      <xsd:enumeration value=\"incomplete\"/>",
  "      <xsd:enumeration value=\"unknown\"/>",
  "      <xsd:enumeration value=\"undefined\"/>",
  "      <xsd:enumeration value=\"ignored\"/>",
  "    </xsd:restriction>",
  "  </xsd:simpleType>",
  "  <xsd:simpleType name=\"eventType\">",
  "    <xsd:restriction base=\"xsd:string\">",
  "      <xsd:enumeration value=\"generation\"/>",
  "      <xsd:enumeration value=\"amendment\"/>",
  "      <xsd:enumeration value=\"repeal\"/>",
  "    </xsd:restriction>",
  "  </xsd:simpleType>",
  "  <xsd:simpleType name=\"posType\">",
  "    <xsd:restriction base=\"xsd:string\">",
  "      <xsd:enumeration value=\"start\"/>",
  "      <xsd:enumeration value=\"before\"/>",
  "      <xsd:enumeration value=\"inside\"/>",
  "      <xsd:enumeration value=\"after\"/>",
  "      <xsd:enumeration value=\"end\"/>",
  "      <xsd:enumeration value=\"unspecified\"/>",
  "    </xsd:restriction>",
  "  </xsd:simpleType>",
  "  <xsd:simpleType name=\"noWhiteSpace\">",
  "    <xsd:restriction base=\"xsd:string\">",
  "      <xsd:pattern value=\"[^\\s]+\"/>",
  "    </xsd:restriction>",
  "  </xsd:simpleType>",
  "  <xsd:simpleType name=\"eIdRef\">",
  "    <xsd:restriction base=\"noWhiteSpace\"/>",
  "  </xsd:simpleType>",
  "  <xsd:simpleType name=\"wIdRef\">",
  "    <xsd:restriction base=\"noWhiteSpace\"/>",
  "  </xsd:simpleType>",
  "  <xsd:simpleType name=\"languageCode\">",
  "    <xsd:restriction base=\"xsd:string\">",
  "      <xsd:pattern value=\"[a-z]\x7b2,3\x7d(-[A-Za-z0-9]+)*\"/>",
  "    </xsd:restriction>",
  "  </xsd:simpleType>",
  "  <xsd:simpleType name=\"agentRef\">",
  "    <xsd:restriction base=\"xsd:anyURI\"/>",
  "  </xsd:simpleType>",
  "  <xsd:attributeGroup name=\"core\">",
  "    <xsd:annotation>",
  "      <xsd:documentation>The attributes every element may carry for presentation.</xsd:documentation>",
  "    </xsd:annotation>",
  "    <xsd:attribute name=\"class\" type=\"xsd:string\"/>",
  "    <xsd:attribute name=\"style\" type=\"xsd:string\"/>",
  "    <xsd:attribute name=\"title\" type=\"xsd:string\"/>",
  "  </xsd:attributeGroup>",
  "  <xsd:attributeGroup name=\"idopt\">",
  "    <xsd:attribute name=\"eId\" type=\"eIdRef\"/>",
  "    <xsd:attribute name=\"wId\" type=\"wIdRef\"/>",
  "    <xsd:attribute name=\"GUID\" type=\"noWhiteSpace\"/>",
  "  </xsd:attributeGroup>",
  "  <xsd:attributeGroup name=\"idreq\">",
  "    <xsd:attribute name=\"eId\" type=\"eIdRef\" use=\"required\"/>",
  "    <xsd:attribute name=\"wId\" type=\"wIdRef\"/>",
  "    <xsd:attribute name=\"GUID\" type=\"noWhiteSpace\"/>",
  "  </xsd:attributeGroup>",
  "  <xsd:attributeGroup name=\"refers\">",
  "    <xsd:attribute name=\"refersTo\" type=\"xsd:string\"/>",
  "  </xsd:attributeGroup>",
  "  <xsd:attributeGroup name=\"optvalue\">",
  "    <xsd:attribute name=\"status\" type=\"statusType\"/>",
  "  </xsd:attributeGroup>",
  "  <xsd:attributeGroup name=\"coreopt\">",
  "    <xsd:attributeGroup ref=\"core\"/>",
  "    <xsd:attributeGroup ref=\"idopt\"/>",
  "    <xsd:attributeGroup ref=\"refers\"/>",
  "    <xsd:attributeGroup ref=\"optvalue\"/>",
  "  </xsd:attributeGroup>",
  "  <xsd:attributeGroup name=\"corereq\">",
  "    <xsd:attributeGroup ref=\"core\"/>",
  "    <xsd:attributeGroup ref=\"idreq\"/>",
  "    <xsd:attributeGroup ref=\"refers\"/>",
  "  </xsd:attributeGroup>",
  "  <xsd:attributeGroup name=\"name\">",
  "    <xsd:attribute name=\"name\" type=\"xsd:string\" use=\"required\"/>",
  "  </xsd:attributeGroup>",
  "  <xsd:attributeGroup name=\"source\">",
  "    <xsd:attribute name=\"source\" type=\"agentRef\" use=\"required\"/>",
  "  </xsd:attributeGroup>",
  "  <xsd:attributeGroup name=\"value\">",
  "    <xsd:attribute name=\"value\" type=\"xsd:string\" use=\"required\"/>",
  "  </xsd:attributeGroup>",
  "  <xsd:attributeGroup name=\"link\">",
  "    <xsd:attribute name=\"href\" type=\"xsd:anyURI\" use=\"required\"/>",
  "  </xsd:attributeGroup>",
  "  <xsd:attributeGroup name=\"show\">",
  "    <xsd:attribute name=\"showAs\" type=\"xsd:string\" use=\"required\"/>",
  "    <xsd:attribute name=\"shortForm\" type=\"xsd:string\"/>",
  "  </xsd:attributeGroup>",
  "  <xsd:attributeGroup name=\"date\">",
  "    <xsd:attribute name=\"date\" type=\"xsd:date\" use=\"required\"/>",
  "  </xsd:attributeGroup>",
  "  <xsd:attribute name=\"lang\" type=\"languageCode\"/>",
  "  <xsd:group name=\"documentType\">",
  "    <xsd:choice>",
  "      <xsd:element ref=\"act\"/>",
  "      <xsd:element ref=\"bill\"/>",
  "      <xsd:element ref=\"doc\"/>",
  "      <xsd:element ref=\"debate\"/>",
  "    </xsd:choice>",
  "  </xsd:group>",
  "  <xsd:group name=\"hierElements\">",
  "    <xsd:choice>",
  "      <xsd:element ref=\"part\"/>",
  "      <xsd:element ref=\"chapter\"/>",
  "      <xsd:element ref=\"section\"/>",
  "      <xsd:element ref=\"article\"/>",
  "      <xsd:element ref=\"paragraph\"/>",
  "    </xsd:choice>",
  "  </xsd:group>",
  "  <xsd:group name=\"blockElements\">",
  "    <xsd:choice>",
  "      <xsd:element ref=\"p\"/>",
  "      <xsd:element ref=\"blockList\"/>",
  "    </xsd:choice>",
  "  </xsd:group>",
  "  <xsd:group name=\"inlineElements\">",
  "    <xsd:choice>",
  "      <xsd:element ref=\"b\"/>",
  "      <xsd:element ref=\"i\"/>",
  "      <xsd:element ref=\"ref\"/>",
  "    </xsd:choice>",
  "  </xsd:group>",
  "  <xsd:complexType name=\"akomaNtosoType\">",
  "    <xsd:sequence>",
  "      <xsd:group ref=\"documentType\"/>",
  "      <xsd:element ref=\"components\" minOccurs=\"0\" maxOccurs=\"1\"/>",
  "    </xsd:sequence>",
  "  </xsd:complexType>",
  "  <xsd:complexType name=\"hierarchicalStructure\">",
  "    <xsd:annotation>",
  "      <xsd:documentation>The type of documents organised in a hierarchy of numbered parts.</xsd:documentation>",
  "    </xsd:annotation>",
  "    <xsd:sequence>",
  "      <xsd:element ref=\"meta\"/>",
  "      <xsd:element ref=\"preface\" minOccurs=\"0\" maxOccurs=\"1\"/>",
  "      <xsd:element ref=\"preamble\" minOccurs=\"0\" maxOccurs=\"1\"/>",
  "      <xsd:element ref=\"body\"/>",
  "      <xsd:element ref=\"conclusions\" minOccurs=\"0\" maxOccurs=\"1\"/>",
  "      <xsd:element ref=\"attachments\" minOccurs=\"0\" maxOccurs=\"1\"/>",
  "    </xsd:sequence>",
  "    <xsd:attributeGroup ref=\"name\"/>",
  "    <xsd:attribute name=\"contains\" type=\"versionType\" use=\"required\"/>",
  "    <xsd:attribute ref=\"lang\"/>",
  "  </xsd:complexType>",
  "  <xsd:complexType name=\"openStructure\">",
  "    <xsd:sequence>",
  "      <xsd:element ref=\"meta\"/>",
  "      <xsd:element ref=\"preface\" minOccurs=\"0\" maxOccurs=\"1\"/>",
  "      <xsd:element ref=\"mainBody\"/>",
  "      <xsd:element ref=\"attachments\" minOccurs=\"0\" maxOccurs=\"1\"/>",
  "    </xsd:sequence>",
  "    <xsd:attributeGroup ref=\"name\"/>",
  "    <xsd:attribute name=\"contains\" type=\"versionType\" default=\"originalVersion\"/>",
  "  </xsd:complexType>",
  "  <xsd:complexType name=\"debateStructure\">",
  "    <xsd:sequence>",
  "      <xsd:element ref=\"meta\"/>",
  "      <xsd:element ref=\"preface\" minOccurs=\"0\" maxOccurs=\"1\"/>",
  "      <xsd:element ref=\"debateBody\"/>",
  "    </xsd:sequence>",
  "    <xsd:attributeGroup ref=\"name\"/>",
  "  </xsd:complexType>",
  "  <xsd:complexType name=\"metaType\">",
  "    <xsd:sequence>",
  "      <xsd:element ref=\"identification\"/>",
  "      <xsd:element ref=\"publication\" minOccurs=\"0\" maxOccurs=\"1\"/>",
  "      <xsd:element ref=\"lifecycle\" minOccurs=\"0\" maxOccurs=\"unbounded\"/>",
  "      <xsd:element ref=\"references\" minOccurs=\"0\" maxOccurs=\"unbounded\"/>",
  "      <xsd:element ref=\"notes\" minOccurs=\"0\" maxOccurs=\"unbounded\"/>",
  "    </xsd:sequence>",
  "  </xsd:complexType>",
  "  <xsd:complexType name=\"identificationType\">",
  "    <xsd:sequence>",
  "      <xsd:element ref=\"FRBRWork\"/>",
  "      <xsd:element ref=\"FRBRExpression\"/>",
  "      <xsd:element ref=\"FRBRManifestation\"/>",
  "      <xsd:element ref=\"FRBRItem\" minOccurs=\"0\" maxOccurs=\"1\"/>",
  "    </xsd:sequence>",
  "    <xsd:attributeGroup ref=\"source\"/>",
  "  </xsd:complexType>",
  "  <xsd:complexType name=\"coreProperties\">",
  "    <xsd:sequence>",
  "      <xsd:element ref=\"FRBRthis\"/>",
  "      <xsd:element ref=\"FRBRuri\" minOccurs=\"1\" maxOccurs=\"unbounded\"/>",
  "      <xsd:element ref=\"FRBRalias\" minOccurs=\"0\" maxOccurs=\"unbounded\"/>",
  "      <xsd:element ref=\"FRBRdate\" minOccurs=\"1\" maxOccurs=\"unbounded\"/>",
  "      <xsd:element ref=\"FRBRauthor\" minOccurs=\"1\" maxOccurs=\"unbounded\"/>",
  "    </xsd:sequence>",
  "    <xsd:attributeGroup ref=\"core\"/>",
  "  </xsd:complexType>",
  "  <xsd:complexType name=\"workType\">",
  "    <xsd:complexContent>",
  "      <xsd:extension base=\"coreProperties\">",
  "        <xsd:sequence>",
  "          <xsd:element ref=\"FRBRcountry\" minOccurs=\"1\" maxOccurs=\"unbounded\"/>",
  "          <xsd:element ref=\"FRBRsubtype\" minOccurs=\"0\" maxOccurs=\"1\"/>",
  "          <xsd:element ref=\"FRBRnumber\" minOccurs=\"0\" maxOccurs=\"unbounded\"/>",
  "          <xsd:element ref=\"FRBRname\" minOccurs=\"0\" maxOccurs=\"unbounded\"/>",
  "        </xsd:sequence>",
  "      </xsd:extension>",
  "    </xsd:complexContent>",
  "  </xsd:complexType>",
  "  <xsd:complexType name=\"expressionType\">",
  "    <xsd:complexContent>",
  "      <xsd:extension base=\"coreProperties\">",
  "        <xsd:sequence>",
  "          <xsd:element ref=\"FRBRlanguage\" minOccurs=\"1\" maxOccurs=\"unbounded\"/>",
  "        </xsd:sequence>",
  "      </xsd:extension>",
  "    </xsd:complexContent>",
  "  </xsd:complexType>",
  "  <xsd:complexType name=\"manifestationType\">",
  "    <xsd:complexContent>",
  "      <xsd:extension base=\"coreProperties\">",
  "        <xsd:sequence>",
  "          <xsd:element ref=\"FRBRformat\" minOccurs=\"0\" maxOccurs=\"1\"/>",
  "        </xsd:sequence>",
  "      </xsd:extension>",
  "    </xsd:complexContent>",
  "  </xsd:complexType>",
  "  <xsd:complexType name=\"itemType\">",
  "    <xsd:complexContent>",
  "      <xsd:restriction base=\"coreProperties\">",
  "        <xsd:sequence>",
  "          <xsd:element ref=\"FRBRthis\"/>",
  "          <xsd:element ref=\"FRBRuri\" minOccurs=\"1\" maxOccurs=\"unbounded\"/>",
  "          <xsd:element ref=\"FRBRdate\" minOccurs=\"1\" maxOccurs=\"unbounded\"/>",
  "        </xsd:sequence>",
  "        <xsd:attribute name=\"style\" use=\"prohibited\"/>",
  "      </xsd:restriction>",
  "    </xsd:complexContent>",
  "  </xsd:complexType>",
  "  <xsd:complexType name=\"valueType\">",
  "    <xsd:attributeGroup ref=\"value\"/>",
  "    <xsd:attributeGroup ref=\"core\"/>",
  "    <xsd:attributeGroup ref=\"refers\"/>",
  "  </xsd:complexType>",
  "  <xsd:complexType name=\"dateType\">",
  "    <xsd:attributeGroup ref=\"date\"/>",
  "    <xsd:attributeGroup ref=\"name\"/>",
  "  </xsd:complexType>",
  "  <xsd:complexType name=\"linkType\">",
  "    <xsd:attributeGroup ref=\"link\"/>",
  "    <xsd:attribute name=\"as\" type=\"xsd:string\"/>",
  "  </xsd:complexType>",
  "  <xsd:complexType name=\"languageType\">",
  "    <xsd:attribute name=\"language\" type=\"languageCode\" use=\"required\"/>",
  "  </xsd:complexType>",
  "  <xsd:complexType name=\"publicationType\">",
  "    <xsd:attributeGroup ref=\"date\"/>",
  "    <xsd:attributeGroup ref=\"name\"/>",
  "    <xsd:attributeGroup ref=\"show\"/>",
  "    <xsd:attribute name=\"number\" type=\"xsd:string\"/>",
  "  </xsd:complexType>",
  "  <xsd:complexType name=\"lifecycleType\">",
  "    <xsd:sequence>",
  "      <xsd:element ref=\"eventRef\" minOccurs=\"1\" maxOccurs=\"unbounded\"/>",
  "    </xsd:sequence>",
  "    <xsd:attributeGroup ref=\"source\"/>",
  "  </xsd:complexType>",
  "  <xsd:complexType name=\"eventRefType\">",
  "    <xsd:attributeGroup ref=\"date\"/>",
  "    <xsd:attributeGroup ref=\"source\"/>",
  "    <xsd:attributeGroup ref=\"idopt\"/>",
  "    <xsd:attribute name=\"type\" type=\"eventType\"/>",
  "  </xsd:complexType>",
  "  <xsd:complexType name=\"refItems\">",
  "    <xsd:choice minOccurs=\"1\" maxOccurs=\"unbounded\">",
  "      <xsd:element ref=\"TLCPerson\"/>",
  "      <xsd:element ref=\"TLCOrganization\"/>",
  "      <xsd:element ref=\"TLCConcept\"/>",
  "    </xsd:choice>",
  "    <xsd:attributeGroup ref=\"source\"/>",
  "  </xsd:complexType>",
  "  <xsd:complexType name=\"referenceType\">",
  "    <xsd:attributeGroup ref=\"idreq\"/>",
  "    <xsd:attributeGroup ref=\"link\"/>",
  "    <xsd:attributeGroup ref=\"show\"/>",
  "  </xsd:complexType>",
  "  <xsd:complexType name=\"notesType\">",
  "    <xsd:sequence>",
  "      <xsd:element ref=\"note\" minOccurs=\"1\" maxOccurs=\"unbounded\"/>",
  "    </xsd:sequence>",
  "    <xsd:attributeGroup ref=\"source\"/>",
  "  </xsd:complexType>",
  "  <xsd:complexType name=\"blocksreq\">",
  "    <xsd:sequence>",
  "      <xsd:choice minOccurs=\"1\" maxOccurs=\"unbounded\">",
  "        <xsd:group ref=\"blockElements\"/>",
  "        <xsd:element ref=\"container\"/>",
  "      </xsd:choice>",
  "    </xsd:sequence>",
  "    <xsd:attributeGroup ref=\"coreopt\"/>",
  "  </xsd:complexType>",
  "  <xsd:complexType name=\"blocksopt\">",
  "    <xsd:complexContent>",
  "      <xsd:restriction base=\"blocksreq\">",
  "        <xsd:sequence>",
  "          <xsd:choice minOccurs=\"0\" maxOccurs=\"unbounded\">",
  "            <xsd:group ref=\"blockElements\"/>",
  "            <xsd:element ref=\"container\"/>",
  "          </xsd:choice>",
  "        </xsd:sequence>",
  "      </xsd:restriction>",
  "    </xsd:complexContent>",
  "  </xsd:complexType>",
  "  <xsd:complexType name=\"bodyType\">",
  "    <xsd:sequence>",
  "      <xsd:choice minOccurs=\"1\" maxOccurs=\"unbounded\">",
  "        <xsd:group ref=\"hierElements\"/>",
  "        <xsd:element ref=\"componentRef\"/>",
  "      </xsd:choice>",
  "      <xsd:element ref=\"wrapUp\" minOccurs=\"0\" maxOccurs=\"1\"/>",
  "    </xsd:sequence>",
  "    <xsd:attributeGroup ref=\"coreopt\"/>",
  "  </xsd:complexType>",
  "  <xsd:complexType name=\"maincontent\">",
  "    <xsd:choice minOccurs=\"1\" maxOccurs=\"unbounded\">",
  "      <xsd:group ref=\"blockElements\"/>",
  "      <xsd:group ref=\"hierElements\"/>",
  "      <xsd:element ref=\"container\"/>",
  "    </xsd:choice>",
  "    <xsd:attributeGroup ref=\"coreopt\"/>",
  "  </xsd:complexType>",
  "  <xsd:complexType name=\"basehierarchy\">",
  "    <xsd:sequence>",
  "      <xsd:element ref=\"num\" minOccurs=\"0\" maxOccurs=\"1\"/>",
  "      <xsd:element ref=\"heading\" minOccurs=\"0\" maxOccurs=\"1\"/>",
  "      <xsd:element ref=\"subheading\" minOccurs=\"0\" maxOccurs=\"1\"/>",
  "    </xsd:sequence>",
  "  </xsd:complexType>",
  "  <xsd:complexType name=\"hierarchy\">",
  "    <xsd:annotation>",
  "      <xsd:documentation>A numbered hierarchical container holding either nested levels or plain content.</xsd:documentation>",
  "    </xsd:annotation>",
  "    <xsd:complexContent>",
  "      <xsd:extension base=\"basehierarchy\">",
  "        <xsd:choice>",
  "          <xsd:sequence>",
  "            <xsd:element ref=\"intro\" minOccurs=\"0\" maxOccurs=\"1\"/>",
  "            <xsd:group ref=\"hierElements\" minOccurs=\"1\" maxOccurs=\"unbounded\"/>",
  "            <xsd:element ref=\"wrapUp\" minOccurs=\"0\" maxOccurs=\"1\"/>",
  "          </xsd:sequence>",
  "          <xsd:element ref=\"content\"/>",
  "        </xsd:choice>",
  "        <xsd:attributeGroup ref=\"coreopt\"/>",
  "      </xsd:extension>",
  "    </xsd:complexContent>",
  "  </xsd:complexType>",
  "  <xsd:complexType name=\"containerType\">",
  "    <xsd:sequence>",
  "      <xsd:choice minOccurs=\"1\" maxOccurs=\"unbounded\">",
  "        <xsd:group ref=\"blockElements\"/>",
  "        <xsd:element ref=\"container\"/>",
  "      </xsd:choice>",
  "    </xsd:sequence>",
  "    <xsd:attributeGroup ref=\"coreopt\"/>",
  "    <xsd:attributeGroup ref=\"name\"/>",
  "  </xsd:complexType>",
  "  <xsd:complexType name=\"inline\" mixed=\"true\">",
  "    <xsd:choice minOccurs=\"0\" maxOccurs=\"unbounded\">",
  "      <xsd:group ref=\"inlineElements\"/>",
  "    </xsd:choice>",
  "    <xsd:attributeGroup ref=\"coreopt\"/>",
  "  </xsd:complexType>",
  "  <xsd:complexType name=\"refType\" mixed=\"true\">",
  "    <xsd:complexContent>",
  "      <xsd:extension base=\"inline\">",
  "        <xsd:attributeGroup ref=\"link\"/>",
  "      </xsd:extension>",
  "    </xsd:complexContent>",
  "  </xsd:complexType>",
  "  <xsd:complexType name=\"blockListType\">",
  "    <xsd:sequence>",
  "      <xsd:element ref=\"listIntroduction\" minOccurs=\"0\" maxOccurs=\"1\"/>",
  "      <xsd:element ref=\"item\" minOccurs=\"1\" maxOccurs=\"unbounded\"/>",
  "    </xsd:sequence>",
  "    <xsd:attributeGroup ref=\"coreopt\"/>",
  "  </xsd:complexType>",
  "  <xsd:complexType name=\"listItemType\">",
  "    <xsd:sequence>",
  "      <xsd:element ref=\"num\" minOccurs=\"0\" maxOccurs=\"1\"/>",
  "      <xsd:choice minOccurs=\"1\" maxOccurs=\"unbounded\">",
  "        <xsd:group ref=\"blockElements\"/>",
  "      </xsd:choice>",
  "    </xsd:sequence>",
  "    <xsd:attributeGroup ref=\"coreopt\"/>",
  "  </xsd:complexType>",
  "  <xsd:complexType name=\"componentRefType\">",
  "    <xsd:attribute name=\"src\" type=\"xsd:anyURI\" use=\"required\"/>",
  "    <xsd:attribute name=\"alt\" type=\"xsd:string\"/>",
  "    <xsd:attributeGroup ref=\"show\"/>",
  "    <xsd:attributeGroup ref=\"idopt\"/>",
  "  </xsd:complexType>",
  "  <xsd:complexType name=\"attachmentsType\">",
  "    <xsd:sequence>",
  "      <xsd:element ref=\"attachment\" minOccurs=\"1\" maxOccurs=\"unbounded\"/>",
  "    </xsd:sequence>",
  "  </xsd:complexType>",
  "  <xsd:complexType name=\"attachmentType\">",
  "    <xsd:choice>",
  "      <xsd:group ref=\"documentType\"/>",
  "      <xsd:element ref=\"interstitial\"/>",
  "    </xsd:choice>",
  "    <xsd:attributeGroup ref=\"idopt\"/>",
  "  </xsd:complexType>",
  "  <xsd:complexType name=\"componentsType\">",
  "    <xsd:sequence>",
  "      <xsd:element ref=\"component\" minOccurs=\"1\" maxOccurs=\"unbounded\"/>",
  "    </xsd:sequence>",
  "  </xsd:complexType>",
  "  <xsd:complexType name=\"debateBodyType\">",
  "    <xsd:sequence>",
  "      <xsd:element ref=\"debateSection\" minOccurs=\"1\" maxOccurs=\"unbounded\"/>",
  "    </xsd:sequence>",
  "    <xsd:attributeGroup ref=\"coreopt\"/>",
  "  </xsd:complexType>",
  "  <xsd:complexType name=\"debateSectionType\">",
  "    <xsd:sequence>",
  "      <xsd:element ref=\"num\" minOccurs=\"0\" maxOccurs=\"1\"/>",
  "      <xsd:element ref=\"heading\" minOccurs=\"0\" maxOccurs=\"1\"/>",
  "      <xsd:choice minOccurs=\"1\" maxOccurs=\"unbounded\">",
  "        <xsd:element ref=\"speech\"/>",
  "        <xsd:element ref=\"question\"/>",
  "        <xsd:group ref=\"blockElements\"/>",
  "        <xsd:element ref=\"debateSection\"/>",
  "      </xsd:choice>",
  "    </xsd:sequence>",
  "    <xsd:attributeGroup ref=\"coreopt\"/>",
  "    <xsd:attributeGroup ref=\"name\"/>",
  "  </xsd:complexType>",
  "  <xsd:complexType name=\"speechType\">",
  "    <xsd:sequence>",
  "      <xsd:element ref=\"from\" minOccurs=\"0\" maxOccurs=\"1\"/>",
  "      <xsd:choice minOccurs=\"1\" maxOccurs=\"unbounded\">",
  "        <xsd:group ref=\"blockElements\"/>",
  "      </xsd:choice>",
  "    </xsd:sequence>",
  "    <xsd:attributeGroup ref=\"coreopt\"/>",
  "    <xsd:attribute name=\"by\" type=\"xsd:string\" use=\"required\"/>",
  "  </xsd:complexType>",
  "  <xsd:complexType name=\"noteType\">",
  "    <xsd:choice minOccurs=\"1\" maxOccurs=\"unbounded\">",
  "      <xsd:group ref=\"blockElements\"/>",
  "    </xsd:choice>",
  "    <xsd:attributeGroup ref=\"coreopt\"/>",
  "    <xsd:attribute name=\"placement\" type=\"posType\"/>",
  "  </xsd:complexType>",
  "  <xsd:element name=\"akomaNtoso\" type=\"akomaNtosoType\">",
  "    <xsd:annotation>",
  "      <xsd:documentation>The root element of every Akoma Ntoso document.</xsd:documentation>",
  "    </xsd:annotation>",
  "  </xsd:element>",
  "  <xsd:element name=\"act\" type=\"hierarchicalStructure\">",
  "    <xsd:annotation>",
  "      <xsd:documentation>Element act is used for describing the structure and content of an act.</xsd:documentation>",
  "    </xsd:annotation>",
  "  </xsd:element>",
  "  <xsd:element name=\"bill\" type=\"hierarchicalStructure\">",
  "    <xsd:annotation>",
  "      <xsd:documentation>Element bill is used for describing the structure and content of a bill.</xsd:documentation>",
  "    </xsd:annotation>",
  "  </xsd:element>",
  "  <xsd:element name=\"doc\" type=\"openStructure\"/>",
  "  <xsd:element name=\"debate\" type=\"debateStructure\"/>",
  "  <xsd:element name=\"components\" type=\"componentsType\"/>",
  "  <xsd:element name=\"component\">",
  "    <xsd:complexType>",
  "      <xsd:choice>",
  "        <xsd:group ref=\"documentType\"/>",
  "      </xsd:choice>",
  "      <xsd:attributeGroup ref=\"idopt\"/>",
  "    </xsd:complexType>",
  "  </xsd:element>",
  "  <xsd:element name=\"meta\" type=\"metaType\"/>",
  "  <xsd:element name=\"identification\" type=\"identificationType\"/>",
  "  <xsd:element name=\"FRBRWork\" type=\"workType\"/>",
  "  <xsd:element name=\"FRBRExpression\" type=\"expressionType\"/>",
  "  <xsd:element name=\"FRBRManifestation\" type=\"manifestationType\"/>",
  "  <xsd:element name=\"FRBRItem\" type=\"itemType\"/>",
  "  <xsd:element name=\"FRBRthis\" type=\"valueType\"/>",
  "  <xsd:element name=\"FRBRuri\" type=\"valueType\"/>",
  "  <xsd:element name=\"FRBRalias\" type=\"valueType\"/>",
  "  <xsd:element name=\"FRBRdate\" type=\"dateType\"/>",
  "  <xsd:element name=\"FRBRauthor\" type=\"linkType\"/>",
  "  <xsd:element name=\"FRBRcountry\" type=\"valueType\"/>",
  "  <xsd:element name=\"FRBRsubtype\" type=\"valueType\"/>",
  "  <xsd:element name=\"FRBRnumber\" type=\"valueType\"/>",
  "  <xsd:element name=\"FRBRname\" type=\"valueType\"/>",
  "  <xsd:element name=\"FRBRlanguage\" type=\"languageType\"/>",
  "  <xsd:element name=\"FRBRformat\" type=\"valueType\"/>",
  "  <xsd:element name=\"publication\" type=\"publicationType\"/>",
  "  <xsd:element name=\"lifecycle\" type=\"lifecycleType\"/>",
  "  <xsd:element name=\"eventRef\" type=\"eventRefType\"/>",
  "  <xsd:element name=\"references\" type=\"refItems\"/>",
  "  <xsd:element name=\"TLCPerson\" type=\"referenceType\"/>",
  "  <xsd:element name=\"TLCOrganization\" type=\"referenceType\"/>",
  "  <xsd:element name=\"TLCConcept\" type=\"referenceType\"/>",
  "  <xsd:element name=\"notes\" type=\"notesType\"/>",
  "  <xsd:element name=\"note\" type=\"noteType\"/>",
  "  <xsd:element name=\"preface\" type=\"blocksreq\"/>",
  "  <xsd:element name=\"preamble\" type=\"blocksopt\"/>",
  "  <xsd:element name=\"conclusions\" type=\"blocksreq\"/>",
  "  <xsd:element name=\"body\" type=\"bodyType\"/>",
  "  <xsd:element name=\"mainBody\" type=\"maincontent\"/>",
  "  <xsd:element name=\"attachments\" type=\"attachmentsType\"/>",
  "  <xsd:element name=\"attachment\" type=\"attachmentType\"/>",
  "  <xsd:element name=\"interstitial\" type=\"blocksreq\"/>",
  "  <xsd:element name=\"part\" type=\"hierarchy\"/>",
  "  <xsd:element name=\"chapter\" type=\"hierarchy\"/>",
  "  <xsd:element name=\"section\" type=\"hierarchy\"/>",
  "  <xsd:element name=\"article\" type=\"hierarchy\"/>",
  "  <xsd:element name=\"paragraph\" type=\"hierarchy\"/>",
  "  <xsd:element name=\"intro\" type=\"blocksreq\"/>",
  "  <xsd:element name=\"wrapUp\" type=\"blocksreq\"/>",
  "  <xsd:element name=\"content\" type=\"blocksreq\"/>",
  "  <xsd:element name=\"num\" type=\"inline\"/>",
  "  <xsd:element name=\"heading\" type=\"inline\"/>",
  "  <xsd:element name=\"subheading\" type=\"inline\"/>",
  "  <xsd:element name=\"componentRef\" type=\"componentRefType\"/>",
  "  <xsd:element name=\"container\" type=\"containerType\"/>",
  "  <xsd:element name=\"p\" type=\"inline\"/>",
  "  <xsd:element name=\"blockList\" type=\"blockListType\"/>",
  "  <xsd:element name=\"listIntroduction\" type=\"inline\"/>",
  "  <xsd:element name=\"item\" type=\"listItemType\"/>",
  "  <xsd:element name=\"b\" type=\"inline\"/>",
  "  <xsd:element name=\"i\" type=\"inline\"/>",
  "  <xsd:element name=\"ref\" type=\"refType\"/>",
  "  <xsd:element name=\"debateBody\" type=\"debateBodyType\"/>",
  "  <xsd:element name=\"debateSection\" type=\"debateSectionType\"/>",
  "  <xsd:element name=\"speech\" type=\"speechType\"/>",
  "  <xsd:element name=\"question\" type=\"speechType\"/>",
  "  <xsd:element name=\"from\" type=\"inline\"/>",
  "</xsd:schema>"]

/-- The text of the core grammar of Akoma Ntoso 3.0. -/
def akomaNtosoText : String := String.intercalate "\n" akomaNtosoLines ++ "\n"

end GrammarProfile.Grammar
